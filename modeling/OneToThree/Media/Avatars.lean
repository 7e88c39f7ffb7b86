import Mathlib.Data.List.Sort
import OneToThree.Lib.InsMap
import OneToThree.Lib.Machine

/-!
# The avatar of a user

An avatar is uploaded to a key that a presign draws, and a commit makes it the user's: it looks
whether the object is there, deletes the one it replaces, and updates the row. A presign also
deletes what lies under the user's prefix, but for the key that the row had when it began.

Each of these is a statement of its own, on the database or on the object store, and any number of
requests of the user are in flight.

* `Task`: where a request is, named by the statement that it waits for.
* `Owned`: a key is pending, or of one commit, or was made the avatar, and of these only one.
* `Kept`: the avatar is there, and so is what a commit has checked, and no sweep will delete either.
* `avatar_kept`: this holds in the runs where no sweep lists a key that is the avatar or is checked,
  and no commit checks a key that a sweep has yet to delete.
-/

namespace OneToThree.Avatar

def MAX_AVATAR_BYTES : ℕ := 2 * 1024 * 1024

def MaxKeys : ℕ := 100

/-- A key of the user's prefix: the id that was drawn for it. -/
abbrev Key := ℕ

/-- A request, by the statement that it waits for. -/
inductive Task
  | presignSelect
  | presignList (keepKey : Option Key)
  | presignDelete (key : Key) (rest : List Key)
  /-- The key of the new upload is drawn, and is pending. -/
  | presignKey
  | commitHead (key : Key)
  | commitTooLarge (key : Key)
  | commitSelect (key : Key)
  | commitDelete (key old : Key)
  | commitUpdate (key : Key)
  deriving DecidableEq

namespace Task

/-- The key that a commit has taken. -/
def taken : Task → Option Key
  | commitHead key | commitTooLarge key | commitSelect key | commitDelete key _
  | commitUpdate key => some key
  | presignSelect | presignList _ | presignDelete .. | presignKey => none

/-- The key that a commit has found, and will make the avatar. -/
def checked : Task → Option Key
  | commitSelect key | commitDelete key _ | commitUpdate key => some key
  | _ => none

/-- The keys that a sweep has yet to delete. -/
def toDelete : Task → List Key
  | presignDelete key rest => key :: rest
  | _ => []

/-- The loop over what was listed. -/
def sweep : List Key → Task
  | [] => presignKey
  | key :: rest => presignDelete key rest

end Task

/-- An object that a request deletes, for the statements only. -/
structure Deletion where
  /-- It is the avatar. -/
  isAvatar : Bool
  /-- A commit in flight has found it. -/
  isChecked : Bool
  /-- The request is a commit that replaces it. -/
  replaces : Bool
  deriving DecidableEq

structure State where
  /-- `users.avatar_key`. -/
  avatarKey : Option Key
  /-- The objects of the user's prefix, with their sizes. -/
  objects : InsMap Key ℕ
  /-- The key in `pendingAvatarKeys`. -/
  pending : Option Key
  /-- The keys that were drawn: there are upload URLs of these. -/
  drawn : List Key
  /-- The requests in flight, by name. -/
  tasks : InsMap ℕ Task
  received : ℕ
  /-- The keys that a commit made the avatar, for the statements only. -/
  made : List Key
  deletions : List Deletion

inductive Event
  | presign
  | commit (key : Key)
  /-- The statement of a request is executed. A presign at its end draws this id. -/
  | resume (i : ℕ) (uuid : Key)
  /-- An upload, to a URL of this key. -/
  | put (key : Key) (size : ℕ)
  /-- What is pending expires. -/
  | expire

namespace State

/-- A user with an avatar or none, and what else lies under the prefix. -/
def start (avatarKey : Option Key) (objects : InsMap Key ℕ) : State :=
  { avatarKey := avatarKey, objects := objects, pending := none
    drawn := avatarKey.toList ++ objects.keys, tasks := ∅, received := 0
    made := avatarKey.toList, deletions := [] }

def goOn (s : State) (i : ℕ) (t : Task) : State := { s with tasks := s.tasks.set i t }

def reply (s : State) (i : ℕ) : State := { s with tasks := s.tasks.delete i }

/-- A new request. -/
def receive (s : State) (t : Task) : State :=
  { s.goOn s.received t with received := s.received + 1 }

def isChecked (s : State) (key : Key) : Bool :=
  s.tasks.entries.any fun t => t.2.checked = some key

def isToDelete (s : State) (key : Key) : Bool :=
  s.tasks.entries.any fun t => t.2.toDelete.contains key

def deleteObject (s : State) (key : Key) (replaces : Bool) : State :=
  { s with
    objects := s.objects.delete key
    deletions := s.deletions ++ [⟨s.avatarKey = some key, s.isChecked key, replaces⟩] }

/-- The listed keys that a sweep deletes. The store lists them in their order. -/
def swept (s : State) (keepKey : Option Key) : List Key :=
  ((s.objects.keys.insertionSort (· ≤ ·)).take MaxKeys).filter fun key => some key ≠ keepKey

/-- `takePendingAvatarKey`: whatever is pending is cleared. -/
def takePendingAvatarKey (s : State) (key : Key) : Bool × State :=
  (s.pending = some key, { s with pending := none })

def commit (s : State) (key : Key) : State :=
  let (taken, s) := s.takePendingAvatarKey key
  if taken then s.receive (.commitHead key) else s

def resume (s : State) (i : ℕ) (uuid : Key) : Option State :=
  match s.tasks.get? i with
  | none => none
  | some .presignSelect => some (s.goOn i (.presignList s.avatarKey))
  | some (.presignList keepKey) => some (s.goOn i (.sweep (s.swept keepKey)))
  | some (.presignDelete key rest) => some ((s.deleteObject key false).goOn i (.sweep rest))
  | some .presignKey =>
    if uuid ∈ s.drawn then none
    else some ({ s with pending := some uuid, drawn := uuid :: s.drawn }.reply i)
  | some (.commitHead key) =>
    match s.objects.get? key with
    | none => some (s.reply i)
    | some size =>
      some (s.goOn i (if size > MAX_AVATAR_BYTES then .commitTooLarge key else .commitSelect key))
  | some (.commitTooLarge key) => some ((s.deleteObject key false).reply i)
  | some (.commitSelect key) =>
    match s.avatarKey with
    | none => some (s.goOn i (.commitUpdate key))
    | some old => some (s.goOn i (if old ≠ key then .commitDelete key old else .commitUpdate key))
  | some (.commitDelete key old) => some ((s.deleteObject old true).goOn i (.commitUpdate key))
  | some (.commitUpdate key) =>
    some ({ s with avatarKey := some key, made := key :: s.made }.reply i)

def put (s : State) (key : Key) (size : ℕ) : State :=
  if key ∈ s.drawn then { s with objects := s.objects.set key size } else s

end State

def machine : Machine State Event where
  init s := ∃ avatarKey objects, s = .start avatarKey objects ∧
    ∀ key, avatarKey = some key → objects.has key = true
  step s
    | .presign => some (s.receive .presignSelect)
    | .commit key => some (s.commit key)
    | .resume i uuid => s.resume i uuid
    | .put key size => some (s.put key size)
    | .expire => some { s with pending := none }

/-! ## The property, and the condition on the steps -/

/-- When no request is in flight the avatar is there. No request has deleted an object that a
    commit has found and will make the avatar, nor the avatar, but to replace it. -/
structure State.NeverDangles (s : State) : Prop where
  avatar : s.tasks.size = 0 → ∀ key, s.avatarKey = some key → s.objects.has key = true
  deletions : ∀ d ∈ s.deletions, d.isChecked = false ∧ (d.isAvatar = true → d.replaces = true)

/-- A sweep lists neither the avatar nor a key that a commit has found, and a commit finds no key
    that a sweep has yet to delete. -/
def State.apart (s : State) : Event → Bool
  | .resume i _ =>
    match s.tasks.get? i with
    | some (.presignList keepKey) =>
      (s.swept keepKey).all fun key => s.avatarKey ≠ some key && !s.isChecked key
    | some (.commitHead key) =>
      (s.objects.get? key).all fun size => size > MAX_AVATAR_BYTES || !s.isToDelete key
    | _ => true
  | _ => true

/-! ## Tasks -/

theorem Task.taken_of_checked {t : Task} {key : Key} (h : t.checked = some key) :
    t.taken = some key := by
  cases t <;> first | exact h | cases h

@[simp] theorem Task.taken_sweep (keys : List Key) : (sweep keys).taken = none := by
  cases keys <;> rfl

@[simp] theorem Task.checked_sweep (keys : List Key) : (sweep keys).checked = none := by
  cases keys <;> rfl

@[simp] theorem Task.toDelete_sweep (keys : List Key) : (sweep keys).toDelete = keys := by
  cases keys <;> rfl

variable {s : State} {i : ℕ} {t : Task}

theorem get?_goOn {j : ℕ} {t' : Task} (h : (s.goOn i t).tasks.get? j = some t') :
    (j = i ∧ t' = t) ∨ (j ≠ i ∧ s.tasks.get? j = some t') := by
  rw [State.goOn, InsMap.get?_set] at h
  split_ifs at h with hj
  · exact .inl ⟨hj, (Option.some.inj h).symm⟩
  · exact .inr ⟨hj, h⟩

theorem get?_goOn_self : (s.goOn i t).tasks.get? i = some t := InsMap.get?_set_self _ _ _

theorem get?_goOn_of_ne {j : ℕ} (h : j ≠ i) :
    (s.goOn i t).tasks.get? j = s.tasks.get? j := InsMap.get?_set_ne _ _ h

theorem get?_reply {j : ℕ} {t' : Task} (h : (s.reply i).tasks.get? j = some t') :
    j ≠ i ∧ s.tasks.get? j = some t' := by
  rw [State.reply, InsMap.get?_delete] at h
  split_ifs at h with hj
  exact ⟨hj, h⟩

/-- A commit in flight has found this key. -/
def State.Checked (s : State) (key : Key) : Prop :=
  ∃ j t, s.tasks.get? j = some t ∧ t.checked = some key

theorem isChecked_iff {key : Key} : s.isChecked key = true ↔ s.Checked key := by
  simp only [State.isChecked, List.any_eq_true, decide_eq_true_eq, State.Checked, Prod.exists,
    InsMap.get?_eq_some_iff]

theorem isChecked_eq_false {key : Key} : s.isChecked key = false ↔ ¬s.Checked key := by
  rw [← isChecked_iff, Bool.not_eq_true]

theorem isToDelete_eq_false {key : Key} : s.isToDelete key = false ↔
    ∀ j t, s.tasks.get? j = some t → key ∉ t.toDelete := by
  simp only [State.isToDelete, List.any_eq_false, List.contains_iff_mem, Prod.forall,
    InsMap.get?_eq_some_iff]

/-! ## Whose a key is -/

/-- A key is pending, or a commit has taken it, or it was made the avatar. -/
structure Owned (s : State) : Prop where
  avatarKey : ∀ key, s.avatarKey = some key → key ∈ s.made
  made : ∀ key ∈ s.made, key ∈ s.drawn
  pending : ∀ key, s.pending = some key → key ∈ s.drawn ∧ key ∉ s.made ∧
    ∀ j t, s.tasks.get? j = some t → t.taken ≠ some key
  taken : ∀ j t key, s.tasks.get? j = some t → t.taken = some key → key ∈ s.drawn ∧
    key ∉ s.made ∧ ∀ j' t', s.tasks.get? j' = some t' → t'.taken = some key → j' = j
  /-- What a commit deletes was the avatar. -/
  old : ∀ j key old, s.tasks.get? j = some (.commitDelete key old) → old ∈ s.made
  named : ∀ j, s.received ≤ j → s.tasks.get? j = none

namespace Owned

theorem start (avatarKey : Option Key) (objects : InsMap Key ℕ) :
    Owned (.start avatarKey objects) where
  avatarKey key h := Option.mem_toList.2 h
  made key h := List.mem_append_left _ h
  pending key h := absurd h (by simp [State.start])
  taken j t key h := absurd h (by simp [State.start])
  old j key old h := absurd h (by simp [State.start])
  named j _ := rfl

/-- A request goes on: it gives up the key that it had taken, or keeps it. -/
theorem goOn (h : Owned s) {t' : Task} (hi : s.tasks.get? i = some t)
    (htaken : t'.taken = none ∨ t'.taken = t.taken)
    (hold : ∀ key old, t' = .commitDelete key old → old ∈ s.made) : Owned (s.goOn i t') := by
  have hof : ∀ j u key, (s.goOn i t').tasks.get? j = some u → u.taken = some key →
      ∃ u', s.tasks.get? j = some u' ∧ u'.taken = some key := by
    intro j u key hj hkey
    rcases get?_goOn hj with ⟨rfl, rfl⟩ | ⟨-, hj⟩
    · rcases htaken with hnone | hsame
      · exact absurd (hnone.symm.trans hkey).symm (Option.some_ne_none key)
      · exact ⟨t, hi, hsame.symm.trans hkey⟩
    · exact ⟨u, hj, hkey⟩
  refine { h with
    pending := fun key hp => ?_
    taken := fun j u key hj hkey => ?_
    old := fun j key old hj => ?_
    named := fun j hj => ?_ }
  · obtain ⟨hdrawn, hmade, hnone⟩ := h.pending key hp
    refine ⟨hdrawn, hmade, fun j u hj hkey => ?_⟩
    obtain ⟨u', hu', hkey'⟩ := hof j u key hj hkey
    exact hnone j u' hu' hkey'
  · obtain ⟨u', hu', hkey'⟩ := hof j u key hj hkey
    obtain ⟨hdrawn, hmade, honly⟩ := h.taken j u' key hu' hkey'
    refine ⟨hdrawn, hmade, fun j' v hj' hv => ?_⟩
    obtain ⟨v', hv', hkey''⟩ := hof j' v key hj' hv
    exact honly j' v' hv' hkey''
  · rcases get?_goOn hj with ⟨-, ht'⟩ | ⟨-, hj⟩
    · exact hold key old ht'.symm
    · exact h.old j key old hj
  · have hne : j ≠ i := by
      rintro rfl
      exact absurd ((h.named j hj).symm.trans hi).symm (Option.some_ne_none t)
    rw [get?_goOn_of_ne hne]
    exact h.named j hj

theorem reply (h : Owned s) (i : ℕ) : Owned (s.reply i) := by
  refine { h with
    pending := fun key hp => ?_
    taken := fun j u key hj hkey => ?_
    old := fun j key old hj => h.old j key old (get?_reply hj).2
    named := fun j hj => ?_ }
  · obtain ⟨hdrawn, hmade, hnone⟩ := h.pending key hp
    exact ⟨hdrawn, hmade, fun j u hj => hnone j u (get?_reply hj).2⟩
  · obtain ⟨hdrawn, hmade, honly⟩ := h.taken j u key (get?_reply hj).2 hkey
    exact ⟨hdrawn, hmade, fun j' v hj' => honly j' v (get?_reply hj').2⟩
  · rw [State.reply, InsMap.get?_delete, h.named j hj, ite_self]

/-- A request is received: what it has taken is nobody else's. -/
theorem receive (h : Owned s) {t : Task} (htaken : ∀ key, t.taken = some key → key ∈ s.drawn ∧
      key ∉ s.made ∧ s.pending ≠ some key ∧ ∀ j u, s.tasks.get? j = some u → u.taken ≠ some key)
    (hold : ∀ key old, t ≠ .commitDelete key old) : Owned (s.receive t) := by
  have hget : ∀ j u, (s.receive t).tasks.get? j = some u →
      (j = s.received ∧ u = t) ∨ (j ≠ s.received ∧ s.tasks.get? j = some u) :=
    fun j u hj => get?_goOn (s := s) hj
  refine { h with
    pending := fun key hp => ?_
    taken := fun j u key hj hkey => ?_
    old := fun j key old hj => ?_
    named := fun j hj => ?_ }
  · obtain ⟨hdrawn, hmade, hnone⟩ := h.pending key hp
    refine ⟨hdrawn, hmade, fun j u hj hkey => ?_⟩
    rcases hget j u hj with ⟨-, rfl⟩ | ⟨-, hj⟩
    · exact (htaken key hkey).2.2.1 hp
    · exact hnone j u hj hkey
  · rcases hget j u hj with ⟨rfl, rfl⟩ | ⟨-, hj⟩
    · obtain ⟨hdrawn, hmade, -, hnone⟩ := htaken key hkey
      refine ⟨hdrawn, hmade, fun j' v hj' hv => ?_⟩
      rcases hget j' v hj' with ⟨rfl, -⟩ | ⟨-, hj'⟩
      · rfl
      · exact absurd hv (hnone j' v hj')
    · obtain ⟨hdrawn, hmade, honly⟩ := h.taken j u key hj hkey
      refine ⟨hdrawn, hmade, fun j' v hj' hv => ?_⟩
      rcases hget j' v hj' with ⟨-, rfl⟩ | ⟨-, hv'⟩
      · exact absurd hkey ((htaken key hv).2.2.2 j u (by assumption))
      · exact honly j' v hv' hv
  · rcases hget j _ hj with ⟨-, ht⟩ | ⟨-, hj⟩
    · exact absurd ht.symm (hold key old)
    · exact h.old j key old hj
  · have hne : j ≠ s.received := Nat.ne_of_gt hj
    exact (get?_goOn_of_ne hne).trans (h.named j (Nat.le_of_succ_le hj))

theorem presign (h : Owned s) : Owned (s.receive .presignSelect) :=
  h.receive (fun key hkey => absurd hkey.symm (Option.some_ne_none key))
    fun _ _ => Task.noConfusion

theorem expire (h : Owned s) : Owned { s with pending := none } :=
  { h with pending := fun key hp => absurd hp.symm (Option.some_ne_none key) }

theorem commit (h : Owned s) (key : Key) : Owned (s.commit key) := by
  rw [State.commit, State.takePendingAvatarKey]
  dsimp only
  split_ifs with htaken
  · rw [decide_eq_true_eq] at htaken
    obtain ⟨hdrawn, hmade, hnone⟩ := h.pending key htaken
    refine h.expire.receive (fun key' hkey => ?_) fun _ _ => Task.noConfusion
    obtain rfl := Option.some.inj hkey
    exact ⟨hdrawn, hmade, (Option.some_ne_none key).symm, hnone⟩
  · exact h.expire

/-- A presign ends: the key of the new upload is nobody's yet. -/
theorem drawKey (h : Owned s) (i : ℕ) {uuid : Key} (hfresh : uuid ∉ s.drawn) :
    Owned ({ s with pending := some uuid, drawn := uuid :: s.drawn }.reply i) := by
  refine Owned.reply ?_ i
  exact { h with
    made := fun key hkey => List.mem_cons_of_mem _ (h.made key hkey)
    pending := fun key hp => by
      obtain rfl := Option.some.inj hp
      refine ⟨List.mem_cons_self, fun hmade => hfresh (h.made _ hmade), fun j u hj hkey => ?_⟩
      exact hfresh (h.taken j u _ hj hkey).1
    taken := fun j u key hj hkey => by
      obtain ⟨hdrawn, hrest⟩ := h.taken j u key hj hkey
      exact ⟨List.mem_cons_of_mem _ hdrawn, hrest⟩ }

/-- A commit ends: its key is the avatar. -/
theorem update (h : Owned s) {key : Key} (hi : s.tasks.get? i = some (.commitUpdate key)) :
    Owned ({ s with avatarKey := some key, made := key :: s.made }.reply i) := by
  obtain ⟨hdrawn, -, honly⟩ := h.taken i _ key hi rfl
  have hreply := h.reply i
  refine { hreply with
    avatarKey := fun key' hkey => ?_
    made := fun key' hkey => ?_
    pending := fun key' hp => ?_
    taken := fun j u key' hj hkey => ?_
    old := fun j key' old hj => List.mem_cons_of_mem _ (hreply.old j key' old hj) }
  · exact Option.some.inj hkey ▸ List.mem_cons_self
  · rcases List.mem_cons.1 hkey with rfl | hkey
    · exact hdrawn
    · exact h.made key' hkey
  · obtain ⟨hdrawn', hmade, hnone⟩ := hreply.pending key' hp
    refine ⟨hdrawn', fun hmem => ?_, hnone⟩
    rcases List.mem_cons.1 hmem with rfl | hmem
    · exact (h.pending _ hp).2.2 i _ hi rfl
    · exact hmade hmem
  · obtain ⟨hdrawn', hmade, hrest⟩ := hreply.taken j u key' hj hkey
    refine ⟨hdrawn', fun hmem => ?_, hrest⟩
    rcases List.mem_cons.1 hmem with rfl | hmem
    · obtain ⟨hne, hj⟩ := get?_reply hj
      exact hne (honly j u hj hkey)
    · exact hmade hmem

theorem resume (h : Owned s) {uuid : Key} {s' : State} (hs : s.resume i uuid = some s') :
    Owned s' := by
  rw [State.resume] at hs
  have hnone : ∀ {u : Task}, (∀ key old, u ≠ .commitDelete key old) →
      ∀ key old, u = .commitDelete key old → old ∈ s.made :=
    fun hu key old heq => absurd heq (hu key old)
  split at hs
  next => cases hs
  next hi =>
    cases hs
    exact h.goOn hi (.inl rfl) (hnone fun _ _ => Task.noConfusion)
  next keepKey hi =>
    cases hs
    refine h.goOn hi (.inl (Task.taken_sweep _)) fun key old heq => ?_
    cases hswept : s.swept keepKey <;> rw [hswept] at heq <;> cases heq
  next key rest hi =>
    cases hs
    have hdelete : Owned (s.deleteObject key false) := { h with }
    refine hdelete.goOn (t := .presignDelete key rest) hi (.inl (Task.taken_sweep _))
      fun _ _ heq => ?_
    cases rest <;> cases heq
  next hi =>
    split_ifs at hs with hfresh
    cases hs
    exact h.drawKey i hfresh
  next key hi =>
    split at hs
    next => cases hs; exact h.reply i
    next size _ =>
      cases hs
      split_ifs
      · exact h.goOn hi (.inr rfl) (hnone fun _ _ => Task.noConfusion)
      · exact h.goOn hi (.inr rfl) (hnone fun _ _ => Task.noConfusion)
  next key hi =>
    cases hs
    have hdelete : Owned (s.deleteObject key false) := { h with }
    exact hdelete.reply i
  next key hi =>
    split at hs
    next => cases hs; exact h.goOn hi (.inr rfl) (hnone fun _ _ => Task.noConfusion)
    next old hold =>
      cases hs
      split_ifs
      · refine h.goOn hi (.inr rfl) fun key' old' heq => ?_
        cases heq
        exact h.avatarKey old hold
      · exact h.goOn hi (.inr rfl) (hnone fun _ _ => Task.noConfusion)
  next key old hi =>
    cases hs
    have hdelete : Owned (s.deleteObject old true) := { h with }
    exact hdelete.goOn (t := .commitDelete key old) hi (.inr rfl)
      fun _ _ heq => Task.noConfusion heq
  next key hi =>
    cases hs
    exact h.update hi

end Owned

/-! ## What is there -/

/-- The avatar is there, unless a commit is about to replace it, and so is what a commit has found;
    no sweep is to delete either, and nothing has deleted either. -/
structure Kept (s : State) : Prop where
  checked : ∀ key, s.Checked key → s.objects.has key = true
  avatar : ∀ key, s.avatarKey = some key → s.objects.has key = true ∨
    ∃ j new, s.tasks.get? j = some (.commitUpdate new)
  toDelete : ∀ j t key, s.tasks.get? j = some t → key ∈ t.toDelete →
    s.avatarKey ≠ some key ∧ ¬s.Checked key
  deletions : ∀ d ∈ s.deletions, d.isChecked = false ∧ (d.isAvatar = true → d.replaces = true)

/-- What is checked when a request goes on: what was, or what the request finds. -/
theorem checked_goOn {t' : Task} {key : Key} (h : (s.goOn i t').Checked key) :
    t'.checked = some key ∨ s.Checked key := by
  obtain ⟨j, u, hj, hkey⟩ := h
  rcases get?_goOn hj with ⟨-, rfl⟩ | ⟨-, hj⟩
  · exact .inl hkey
  · exact .inr ⟨j, u, hj, hkey⟩

theorem checked_reply {key : Key} (h : (s.reply i).Checked key) : s.Checked key := by
  obtain ⟨j, u, hj, hkey⟩ := h
  exact ⟨j, u, (get?_reply hj).2, hkey⟩

theorem has_delete_of_ne {objects : InsMap Key ℕ} {key key' : Key} (hne : key' ≠ key)
    (h : objects.has key' = true) : (objects.delete key).has key' = true := by
  rw [InsMap.has_delete, h, decide_eq_false hne]
  rfl

namespace Kept

/-- A request that finds a key, or none, and that is to delete keys, or none, goes on. -/
theorem goOn (h : Kept s) {t' : Task} (hi : s.tasks.get? i = some t)
    (hchecked : ∀ key, t'.checked = some key → s.Checked key ∨
      (s.objects.has key = true ∧ ∀ j u, s.tasks.get? j = some u → key ∉ u.toDelete))
    (hdelete : ∀ key ∈ t'.toDelete, s.avatarKey ≠ some key ∧ ¬s.Checked key)
    (hone : t'.checked = none ∨ t'.toDelete = [])
    (hupdate : ∀ new, t ≠ .commitUpdate new) : Kept (s.goOn i t') := by
  refine ⟨fun key hkey => ?_, fun key hkey => ?_, fun j u key hj hkey => ?_, h.deletions⟩
  · rcases checked_goOn hkey with hnew | hold
    · exact (hchecked key hnew).elim (h.checked key) And.left
    · exact h.checked key hold
  · refine (h.avatar key hkey).imp_right (Exists.imp fun j => Exists.imp fun new hj => ?_)
    have hne : j ≠ i := by
      rintro rfl
      exact hupdate new (Option.some.inj (hi.symm.trans hj))
    rw [get?_goOn_of_ne hne]
    exact hj
  · rcases get?_goOn hj with ⟨-, rfl⟩ | ⟨-, hu⟩
    · obtain ⟨havatar, hnot⟩ := hdelete key hkey
      refine ⟨havatar, fun hnew => ?_⟩
      rcases checked_goOn hnew with hnew | hold
      · rcases hone with hnone | hnil
        · exact absurd (hnone.symm.trans hnew).symm (Option.some_ne_none key)
        · rw [hnil] at hkey
          exact absurd hkey List.not_mem_nil
      · exact hnot hold
    · obtain ⟨havatar, hnot⟩ := h.toDelete j u key hu hkey
      refine ⟨havatar, fun hnew => ?_⟩
      rcases checked_goOn hnew with hnew | hold
      · rcases hchecked key hnew with hold | ⟨-, hfree⟩
        · exact hnot hold
        · exact hfree j u hu hkey
      · exact hnot hold

/-- A request that neither finds a key nor is to delete any goes on. -/
theorem goOn_plain (h : Kept s) {t' : Task} (hi : s.tasks.get? i = some t)
    (hchecked : t'.checked = none ∨ t'.checked = t.checked) (hdelete : t'.toDelete = [])
    (hupdate : ∀ new, t ≠ .commitUpdate new) : Kept (s.goOn i t') := by
  refine h.goOn hi (fun key hkey => ?_) (fun key hkey => ?_) (.inr hdelete) hupdate
  · rcases hchecked with hnone | hsame
    · exact absurd (hnone.symm.trans hkey).symm (Option.some_ne_none key)
    · exact .inl ⟨i, t, hi, hsame.symm.trans hkey⟩
  · rw [hdelete] at hkey
    exact absurd hkey List.not_mem_nil

theorem reply (h : Kept s) (hi : s.tasks.get? i = some t) (hupdate : ∀ new, t ≠ .commitUpdate new) :
    Kept (s.reply i) := by
  refine ⟨fun key hkey => h.checked key (checked_reply hkey), fun key hkey => ?_,
    fun j u key hj hkey => ?_, h.deletions⟩
  · refine (h.avatar key hkey).imp_right (Exists.imp fun j => Exists.imp fun new hj => ?_)
    have hne : j ≠ i := by
      rintro rfl
      exact hupdate new (Option.some.inj (hi.symm.trans hj))
    exact (InsMap.get?_delete_ne _ hne).trans hj
  · obtain ⟨havatar, hnot⟩ := h.toDelete j u key (get?_reply hj).2 hkey
    exact ⟨havatar, fun hnew => hnot (checked_reply hnew)⟩

/-- A request is received. -/
theorem receive (h : Kept s) (howned : Owned s) {t : Task} (hchecked : t.checked = none)
    (hdelete : t.toDelete = []) : Kept (s.receive t) := by
  have hof : ∀ key, (s.receive t).Checked key → s.Checked key := fun key hkey => by
    rcases checked_goOn (s := s) hkey with hnew | hold
    · exact absurd (hchecked.symm.trans hnew).symm (Option.some_ne_none key)
    · exact hold
  refine ⟨fun key hkey => h.checked key (hof key hkey), fun key hkey => ?_,
    fun j u key hj hkey => ?_, h.deletions⟩
  · refine (h.avatar key hkey).imp_right (Exists.imp fun j => Exists.imp fun new hj => ?_)
    have hne : j ≠ s.received := by
      rintro rfl
      exact absurd ((howned.named _ (Nat.le_refl _)).symm.trans hj).symm (Option.some_ne_none _)
    exact (get?_goOn_of_ne hne).trans hj
  · rcases get?_goOn (s := s) hj with ⟨-, rfl⟩ | ⟨-, hu⟩
    · rw [hdelete] at hkey
      exact absurd hkey List.not_mem_nil
    · obtain ⟨havatar, hnot⟩ := h.toDelete j u key hu hkey
      exact ⟨havatar, fun hnew => hnot (hof key hnew)⟩

/-- An object that is neither the avatar nor checked is deleted. -/
theorem deleteObject (h : Kept s) {key : Key} (havatar : s.avatarKey ≠ some key)
    (hnot : ¬s.Checked key) : Kept (s.deleteObject key false) := by
  refine { h with checked := fun key' hkey => ?_, avatar := fun key' hkey => ?_, deletions := ?_ }
  · refine has_delete_of_ne ?_ (h.checked key' hkey)
    rintro rfl
    exact hnot hkey
  · refine (h.avatar key' hkey).imp_left (has_delete_of_ne ?_)
    rintro rfl
    exact havatar hkey
  · intro d hd
    rcases List.mem_append.1 hd with hd | hd
    · exact h.deletions d hd
    · obtain rfl := List.mem_singleton.1 hd
      exact ⟨isChecked_eq_false.2 hnot, fun heq => absurd (of_decide_eq_true heq) havatar⟩

/-- A commit deletes what it replaces, which no other commit has found. -/
theorem replace (h : Kept s) (howned : Owned s) {key old : Key}
    (hi : s.tasks.get? i = some (.commitDelete key old)) :
    Kept ((s.deleteObject old true).goOn i (.commitUpdate key)) := by
  have hgoOn : Kept (s.goOn i (.commitUpdate key)) :=
    h.goOn_plain hi (.inr rfl) rfl fun _ => Task.noConfusion
  have hnot : ¬s.Checked old := by
    rintro ⟨j, u, hj, hkey⟩
    exact (howned.taken j u old hj (Task.taken_of_checked hkey)).2.1 (howned.old i key old hi)
  refine ⟨fun key' hkey => ?_, fun key' _ => .inr ⟨i, key, get?_goOn_self⟩, hgoOn.toDelete,
    fun d hd => ?_⟩
  · refine has_delete_of_ne ?_ (hgoOn.checked key' hkey)
    rintro rfl
    rcases checked_goOn (s := s) hkey with hnew | hold
    · exact hnot ⟨i, _, hi, hnew⟩
    · exact hnot hold
  · rcases List.mem_append.1 hd with hd | hd
    · exact h.deletions d hd
    · obtain rfl := List.mem_singleton.1 hd
      exact ⟨isChecked_eq_false.2 hnot, fun _ => rfl⟩

/-- What a commit has found becomes the avatar. -/
theorem update (h : Kept s) {key : Key} (hi : s.tasks.get? i = some (.commitUpdate key)) :
    Kept ({ s with avatarKey := some key, made := key :: s.made }.reply i) := by
  have hchecked : s.Checked key := ⟨i, _, hi, rfl⟩
  refine ⟨fun key' hkey => h.checked key' (checked_reply hkey), fun key' hkey => ?_,
    fun j u key' hj hkey => ?_, h.deletions⟩
  · obtain rfl := Option.some.inj hkey
    exact .inl (h.checked _ hchecked)
  · obtain ⟨-, hnot⟩ := h.toDelete j u key' (get?_reply hj).2 hkey
    refine ⟨fun heq => ?_, fun hnew => hnot (checked_reply hnew)⟩
    obtain rfl := Option.some.inj heq
    exact hnot hchecked

theorem start {avatarKey : Option Key} {objects : InsMap Key ℕ}
    (h : ∀ key, avatarKey = some key → objects.has key = true) :
    Kept (.start avatarKey objects) where
  checked := fun key hkey => by
    obtain ⟨j, u, hj, -⟩ := hkey
    exact absurd hj (by simp [State.start])
  avatar := fun key hkey => .inl (h key hkey)
  toDelete := fun j t key hj => absurd hj (by simp [State.start])
  deletions := fun d hd => absurd hd List.not_mem_nil

theorem commit (h : Kept s) (howned : Owned s) (key : Key) : Kept (s.commit key) := by
  have hexpire : Kept { s with pending := none } := { h with }
  rw [State.commit, State.takePendingAvatarKey]
  dsimp only
  split_ifs
  · exact hexpire.receive howned.expire rfl rfl
  · exact hexpire

theorem put (h : Kept s) (key : Key) (size : ℕ) : Kept (s.put key size) := by
  have hhas : ∀ key', s.objects.has key' = true → (s.objects.set key size).has key' = true :=
    fun key' hkey => by rw [InsMap.has_set, hkey, Bool.or_true]
  rw [State.put]
  split_ifs
  · exact { h with
      checked := fun key' hkey => hhas key' (h.checked key' hkey)
      avatar := fun key' hkey => (h.avatar key' hkey).imp_left (hhas key') }
  · exact h

theorem resume (h : Kept s) (howned : Owned s) {uuid : Key} {s' : State}
    (hapart : s.apart (.resume i uuid) = true) (hs : s.resume i uuid = some s') : Kept s' := by
  rw [State.resume] at hs
  rw [State.apart] at hapart
  split at hs
  next => cases hs
  next hi =>
    cases hs
    exact h.goOn_plain hi (.inl rfl) rfl fun _ => Task.noConfusion
  next keepKey hi =>
    cases hs
    simp only [hi, List.all_eq_true, Bool.and_eq_true, decide_eq_true_eq, Bool.not_eq_true',
      isChecked_eq_false] at hapart
    refine h.goOn hi (fun key hkey => ?_) (fun key hkey => ?_) (.inl (Task.checked_sweep _))
      fun _ => Task.noConfusion
    · rw [Task.checked_sweep] at hkey
      exact absurd hkey.symm (Option.some_ne_none key)
    · rw [Task.toDelete_sweep] at hkey
      exact hapart key hkey
  next key rest hi =>
    cases hs
    obtain ⟨havatar, hnot⟩ := h.toDelete i _ key hi List.mem_cons_self
    have hdelete := h.deleteObject havatar hnot
    refine hdelete.goOn (t := .presignDelete key rest) hi (fun key' hkey => ?_)
      (fun key' hkey => ?_) (.inl (Task.checked_sweep _)) fun _ => Task.noConfusion
    · rw [Task.checked_sweep] at hkey
      exact absurd hkey.symm (Option.some_ne_none key')
    · rw [Task.toDelete_sweep] at hkey
      exact h.toDelete i _ key' hi (List.mem_cons_of_mem _ hkey)
  next hi =>
    split_ifs at hs
    cases hs
    have hdraw : Kept { s with pending := some uuid, drawn := uuid :: s.drawn } := { h with }
    exact hdraw.reply hi fun _ => Task.noConfusion
  next key hi =>
    split at hs
    next => cases hs; exact h.reply hi fun _ => Task.noConfusion
    next size hsize =>
      cases hs
      have hhas : s.objects.has key = true := by rw [InsMap.has, hsize]; rfl
      simp only [hi, hsize, Option.all_some, Bool.or_eq_true, decide_eq_true_eq,
        Bool.not_eq_true', isToDelete_eq_false] at hapart
      split_ifs with hlarge
      · exact h.goOn_plain hi (.inl rfl) rfl fun _ => Task.noConfusion
      · refine h.goOn hi (fun key' hkey => ?_) (fun key' hkey => absurd hkey List.not_mem_nil)
          (.inr rfl) fun _ => Task.noConfusion
        obtain rfl := Option.some.inj hkey
        exact .inr ⟨hhas, hapart.resolve_left hlarge⟩
  next key hi =>
    cases hs
    -- the key is of this commit alone, which has not found it
    obtain ⟨-, hmade, honly⟩ := howned.taken i _ key hi rfl
    have havatar : s.avatarKey ≠ some key := fun heq => hmade (howned.avatarKey key heq)
    have hnot : ¬s.Checked key := by
      rintro ⟨j, u, hj, hkey⟩
      obtain rfl := honly j u hj (Task.taken_of_checked hkey)
      obtain rfl := Option.some.inj (hi.symm.trans hj)
      cases hkey
    have hdelete := h.deleteObject havatar hnot
    exact hdelete.reply (t := .commitTooLarge key) hi fun _ => Task.noConfusion
  next key hi =>
    split at hs
    next => cases hs; exact h.goOn_plain hi (.inr rfl) rfl fun _ => Task.noConfusion
    next old hold =>
      cases hs
      split_ifs
      · exact h.goOn_plain hi (.inr rfl) rfl fun _ => Task.noConfusion
      · exact h.goOn_plain hi (.inr rfl) rfl fun _ => Task.noConfusion
  next key old hi =>
    cases hs
    exact h.replace howned hi
  next key hi =>
    cases hs
    exact h.update hi

end Kept

/-! ## Runs -/

theorem owned_step {e : Event} {s' : State} (h : Owned s) (hs : machine.step s e = some s') :
    Owned s' := by
  cases e with
  | presign => exact Option.some.inj hs ▸ h.presign
  | commit key => exact Option.some.inj hs ▸ h.commit key
  | resume i uuid => exact h.resume hs
  | put key size =>
    cases hs
    rw [State.put]
    split_ifs
    · exact { h with }
    · exact h
  | expire => exact Option.some.inj hs ▸ h.expire

theorem kept_step {e : Event} {s' : State} (h : Kept s) (howned : Owned s)
    (hapart : s.apart e = true) (hs : machine.step s e = some s') : Kept s' := by
  cases e with
  | presign => exact Option.some.inj hs ▸ h.receive howned rfl rfl
  | commit key => exact Option.some.inj hs ▸ h.commit howned key
  | resume i uuid => exact h.resume howned hapart hs
  | put key size => exact Option.some.inj hs ▸ h.put key size
  | expire =>
    cases hs
    exact { h with }

/-- The machine of the steps that meet the condition. -/
def orderly : Machine State Event := machine.restrict fun s e => s.apart e = true

theorem owned_kept : orderly.Invariant fun s => Owned s ∧ Kept s where
  init := by
    rintro _ ⟨avatarKey, objects, rfl, hthere⟩
    exact ⟨.start avatarKey objects, .start hthere⟩
  step s e s' h hstep := by
    obtain ⟨hapart, hstep⟩ := Machine.restrict_step.1 hstep
    exact ⟨owned_step h.1 hstep, kept_step h.2 h.1 hapart hstep⟩

/-- **The avatar never dangles** in the runs where no sweep lists the avatar or a key that a commit
    has found, and no commit finds a key that a sweep has yet to delete. -/
theorem avatar_kept (hs : orderly.Reachable s) : s.NeverDangles := by
  obtain ⟨-, hkept⟩ := owned_kept.reachable hs
  refine ⟨fun hsize key hkey => ?_, hkept.deletions⟩
  refine (hkept.avatar key hkey).resolve_right ?_
  rintro ⟨j, new, hj⟩
  have hnil : s.tasks.entries = [] := List.length_eq_zero_iff.1 hsize
  rw [InsMap.get?_eq_some_iff, hnil] at hj
  exact absurd hj List.not_mem_nil

namespace Sample

/-- The request is served to its end, a presign drawing this id. -/
def serve (i : ℕ) (uuid : Key) (statements : ℕ) : List Event :=
  List.replicate statements (.resume i uuid)

/-- An avatar is uploaded. -/
def upload (i : ℕ) (uuid : Key) : List Event :=
  .presign :: serve i uuid 3 ++ [.put uuid 1]

/-- Two devices change the avatar: the presign of the second has read the row, when the commit of
    the first begins; and lists the objects when it has ended. -/
def crossed : List Event :=
  upload 0 1 ++ [.presign, .resume 1 2, .commit 1] ++ serve 2 0 3 ++ serve 1 2 3

/-- One after the other. -/
def inTurn : List Event :=
  upload 0 1 ++ .commit 1 :: serve 1 0 3 ++ upload 2 2 ++ .commit 2 :: serve 3 0 4

/-- What is in flight, the avatar, and whether that is there. -/
def found (s : State) : ℕ × Option Key × Bool :=
  (s.tasks.size, s.avatarKey, s.avatarKey.all s.objects.has)

theorem found_crossed :
    (machine.run (.start none ∅) crossed).map found = some (0, some 1, false) := by
  decide

theorem found_inTurn : (orderly.run (.start none ∅) inTurn).map found = some (0, some 2, true) := by
  decide

end Sample

/-- The sweep removes the object that was just committed. -/
theorem sweep_removes_avatar :
    ∃ s, machine.run (.start none ∅) Sample.crossed = some s ∧ ¬s.NeverDangles := by
  obtain ⟨s, hs, hfound⟩ := Option.map_eq_some_iff.1 Sample.found_crossed
  obtain ⟨hsize, hrest⟩ := Prod.mk.inj hfound
  obtain ⟨hkey, hthere⟩ := Prod.mk.inj hrest
  refine ⟨s, hs, fun h => ?_⟩
  have hhas := h.avatar hsize 1 hkey
  rw [hkey, Option.all_some, hhas] at hthere
  cases hthere

theorem avatar_kept_inTurn : ∃ s, orderly.run (.start none ∅) Sample.inTurn = some s ∧
    s.avatarKey = some 2 ∧ s.NeverDangles := by
  obtain ⟨s, hs, hfound⟩ := Option.map_eq_some_iff.1 Sample.found_inTurn
  have hinit : orderly.init (.start none ∅) := ⟨none, ∅, rfl, fun key h => by cases h⟩
  exact ⟨s, hs, (Prod.mk.inj (Prod.mk.inj hfound).2).1,
    avatar_kept (Machine.reachable_of_run hs hinit)⟩

end OneToThree.Avatar
