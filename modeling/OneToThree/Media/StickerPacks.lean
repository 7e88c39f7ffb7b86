import Mathlib.Algebra.Order.Ring.Int
import Mathlib.Data.List.Nodup
import OneToThree.Lib.Machine
import OneToThree.Lib.Tasks

/-!
# Sticker packs

A sticker is a row of its pack that names an object of the store. The owner of a pack uploads and
deletes stickers, refreshes the pack from the set that it was imported from, and deletes it. Each
request waits between its statements, and the objects of the rows that it deleted are collected in
the background, unless a row still names them.

* `Task`: where a request is, named by the statement that it waits for.
* `State.Sound`: what is about to be inserted is in the store, and what is about to be collected is
  no longer inserted by anyone.
* `survives_iff`: the rows always name objects that are there. That the stickers have positions of
  their own, and that no refresh takes them for nothing, depends on how the requests overlap and
  fail.
-/

namespace OneToThree.StickerPacks

/-- The key of an object: one from before, or one that a request has drawn at random. -/
inductive Key
  | old (n : ℕ)
  | drawn (request index : ℕ)
  deriving DecidableEq

/-- A row of `stickers`. -/
structure Sticker where
  id : ℕ
  position : ℤ
  mediaKey : Key
  deriving DecidableEq

/-- A request, or what it leaves in the background, by what it waits for. The keys `took` are those
    of the rows that a refresh has deleted, and `stored` are the stickers of the set that it has
    put into the store. -/
inductive Task
  /-- `POST /packs/:packId/stickers`. -/
  | readPositions
  | putUpload (nextPos : ℤ)
  | insertUpload (nextPos : ℤ)
  /-- `DELETE /packs/:packId/stickers/:stickerId`. -/
  | deleteSticker (id : ℕ) (mediaKey : Key)
  /-- `POST /packs/:packId/refresh`. -/
  | readOldKeys (size : ℕ)
  | deleteStickers (size : ℕ) (oldKeys : List Key)
  | putSticker (size index : ℕ) (oldKeys took : List Key) (stored : List ℕ)
  | insertStickers (oldKeys took : List Key) (stored : List ℕ)
  /-- `DELETE /packs/:packId`. -/
  | readKeys
  | deletePack (keys : List Key)
  /-- `cleanupOrphanStickerObjects`, and whether it is that of a refresh which stored nothing. -/
  | findReference (idle : Bool) (keys : List Key)
  | deleteObject (idle : Bool) (key : Key) (rest : List Key)

structure State where
  packExists : Bool
  stickers : List Sticker
  nextId : ℕ
  /-- The keys that rows of other packs name. -/
  cloned : Key → Bool
  objects : Key → Bool
  tasks : Tasks Task
  /-- The keys of the stickers and objects that were taken by refreshes which stored nothing. -/
  lost : List Key

inductive Event
  | upload
  | deleteSticker (id : ℕ)
  /-- The set that the pack was imported from has that many stickers. -/
  | refresh (size : ℕ)
  | deletePack
  /-- The statement of a task is executed. -/
  | resume (i : ℕ)
  /-- The download, upload or insertion that a task waits for fails. -/
  | fail (i : ℕ)

def STICKER_UPLOAD_MAX_PER_PACK : ℕ := 120

def REFRESH_MAX : ℕ := 100

/-- The loop of a refresh over the stickers of the set. -/
def Task.putFrom (size index : ℕ) (oldKeys took : List Key) (stored : List ℕ) : Task :=
  if index < min size REFRESH_MAX then putSticker size index oldKeys took stored
  else insertStickers oldKeys took stored

/-- The task is that of a request. -/
def Task.isRequest : Task → Bool
  | findReference _ _ => false
  | deleteObject _ _ _ => false
  | _ => true

namespace State

/-- A row of `stickers` names the object. -/
def isReferenced (s : State) (key : Key) : Bool :=
  s.stickers.any (·.mediaKey = key) || s.cloned key

def positions (s : State) : List ℤ := s.stickers.map (·.position)

def nextPos (s : State) : ℤ := s.positions.foldl max (-1) + 1

def goOn (s : State) (i : ℕ) (t : Task) : State := { s with tasks := s.tasks.goOn i t }

def finish (s : State) (i : ℕ) : State := { s with tasks := s.tasks.finish i }

/-- The objects are collected in the background. -/
def catchOrphanCleanup (s : State) (idle : Bool) (mediaKeys : List Key) : State :=
  { s with tasks := s.tasks.spawn (.findReference idle mediaKeys.eraseDups) }

def put (s : State) (key : Key) : State :=
  { s with objects := fun k => k = key || s.objects k }

def remove (s : State) (key : Key) : State :=
  { s with objects := fun k => k ≠ key && s.objects k }

/-- Rows are inserted, all or none. -/
def insert (s : State) (rows : List (ℤ × Key)) : State :=
  { s with
    stickers := s.stickers ++ rows.mapIdx fun j row => ⟨s.nextId + j, row.1, row.2⟩
    nextId := s.nextId + rows.length }

def deleteRows (s : State) (gone : Sticker → Bool) : State :=
  { s with stickers := s.stickers.filter (!gone ·) }

def lose (s : State) (keys : List Key) : State := { s with lost := s.lost ++ keys }

/-- The rows that a refresh inserts. -/
def rowsOf (i : ℕ) (stored : List ℕ) : List (ℤ × Key) :=
  stored.map fun j : ℕ => ((j : ℤ), .drawn i j)

/-- The statement that a task waits for. -/
def execute (s : State) (i : ℕ) : Task → State
  | .readPositions =>
    if STICKER_UPLOAD_MAX_PER_PACK ≤ s.stickers.length then s.finish i
    else s.goOn i (.putUpload s.nextPos)
  | .putUpload nextPos => (s.put (.drawn i 0)).goOn i (.insertUpload nextPos)
  | .insertUpload nextPos =>
    -- Without the pack, the row refers to nothing.
    if s.packExists then (s.insert [(nextPos, .drawn i 0)]).finish i else s.finish i
  | .deleteSticker id mediaKey =>
    ((s.deleteRows (·.id = id)).finish i).catchOrphanCleanup false [mediaKey]
  | .readOldKeys size => s.goOn i (.deleteStickers size (s.stickers.map (·.mediaKey)))
  | .deleteStickers size oldKeys =>
    (s.deleteRows fun _ => true).goOn i
      (.putFrom size 0 oldKeys (s.stickers.map (·.mediaKey)) [])
  | .putSticker size index oldKeys took stored =>
    (s.put (.drawn i index)).goOn i (.putFrom size (index + 1) oldKeys took (stored ++ [index]))
  | .insertStickers oldKeys took stored =>
    if stored = [] then ((s.lose took).finish i).catchOrphanCleanup true oldKeys
    else if s.packExists then
      ((s.insert (rowsOf i stored)).finish i).catchOrphanCleanup false oldKeys
    else (s.lose took).finish i
  | .readKeys => s.goOn i (.deletePack (s.stickers.map (·.mediaKey)))
  | .deletePack keys =>
    (({ s with packExists := false }.deleteRows fun _ => true).finish i).catchOrphanCleanup
      false keys
  | .findReference _ [] => s.finish i
  | .findReference idle (key :: rest) =>
    s.goOn i (if s.isReferenced key then .findReference idle rest
      else .deleteObject idle key rest)
  | .deleteObject idle key rest =>
    ((s.lose (if idle && s.objects key then [key] else [])).remove key).goOn i
      (.findReference idle rest)

/-- What the failure of it leads to, if it may fail. -/
def abort (s : State) (i : ℕ) : Task → Option State
  | .putUpload _ => some (s.finish i)
  | .insertUpload _ => some (s.finish i)
  | .putSticker size index oldKeys took stored =>
    some (s.goOn i (.putFrom size (index + 1) oldKeys took stored))
  | .insertStickers _ took stored => if stored = [] then none else some ((s.lose took).finish i)
  | .findReference idle (_ :: rest) => some (s.goOn i (.findReference idle rest))
  | .deleteObject idle _ rest => some (s.goOn i (.findReference idle rest))
  | _ => none

def spawn (s : State) (t : Task) : State := { s with tasks := s.tasks.spawn t }

/-- The request finds the pack of its sender. -/
def onPack (s : State) (t : Task) : State := if s.packExists then s.spawn t else s

end State

/-- The pack before the first request, with stickers at positions of their own. -/
structure State.IsStart (s : State) : Prop where
  ids : (s.stickers.map (·.id)).Nodup
  id_lt : ∀ x ∈ s.stickers, x.id < s.nextId
  positions : s.positions.Nodup
  old : ∀ key, s.isReferenced key = true → ∃ n, key = .old n
  stored : ∀ key, s.isReferenced key = true → s.objects key = true
  tasks : s.tasks = .empty
  lost : s.lost = []

def machine : Machine State Event where
  init := State.IsStart
  step s
    | .upload => some (s.onPack .readPositions)
    | .deleteSticker id =>
      some (match s.stickers.find? (·.id = id) with
        | none => s
        | some x => s.spawn (.deleteSticker id x.mediaKey))
    | .refresh size => some (s.onPack (.readOldKeys size))
    | .deletePack => some (s.onPack .readKeys)
    | .resume i => (s.tasks.get? i).map (s.execute i)
    | .fail i => (s.tasks.get? i).bind (s.abort i)

/-! ## What is in the store -/

/-- The objects that the request of that name has put and is about to insert. -/
def Task.pending (i : ℕ) : Task → List Key
  | insertUpload _ => [.drawn i 0]
  | putSticker _ _ _ _ stored => stored.map (.drawn i)
  | insertStickers _ _ stored => stored.map (.drawn i)
  | _ => []

/-- The keys that the task goes on to collect. -/
def Task.selects : Task → List Key
  | deleteSticker _ mediaKey => [mediaKey]
  | deleteStickers _ oldKeys => oldKeys
  | putSticker _ _ oldKeys _ _ => oldKeys
  | insertStickers oldKeys _ _ => oldKeys
  | deletePack keys => keys
  | findReference _ keys => keys
  | deleteObject _ key rest => key :: rest
  | _ => []

/-- The object that the task has found without a reference. -/
def Task.dooms : Task → List Key
  | deleteObject _ key _ => [key]
  | _ => []

/-- The stickers of a set are put in order. -/
def Task.Ordered : Task → Prop
  | putSticker _ index _ _ stored => stored.Nodup ∧ ∀ j ∈ stored, j < index
  | insertStickers _ _ stored => stored.Nodup
  | _ => True

namespace State

variable {s s' : State} {i : ℕ} {t u : Task} {key : Key} {keys : List Key} {idle : Bool}

/-- No request goes on to insert the key. -/
def Settled (s : State) (key : Key) : Prop := ∀ i n, key = .drawn i n → s.tasks.Over i

/-- What a task in flight may rely on. -/
structure Ready (s : State) (i : ℕ) (t : Task) : Prop where
  pending : ∀ key ∈ t.pending i, s.objects key = true
  settled : ∀ key ∈ t.selects, s.Settled key
  unreferenced : ∀ key ∈ t.dooms, s.isReferenced key = false
  ordered : t.Ordered

structure Sound (s : State) : Prop where
  stored : ∀ key, s.isReferenced key = true → s.objects key = true
  settled : ∀ key, s.isReferenced key = true → s.Settled key
  tasks : s.tasks.Each s.Ready

theorem isReferenced_iff : s.isReferenced key = true ↔
    key ∈ s.stickers.map (·.mediaKey) ∨ s.cloned key = true := by
  simp [isReferenced, List.any_eq_true]

theorem eq_drawn_of_mem_pending (h : key ∈ t.pending i) : ∃ n, key = .drawn i n := by
  cases t with
  | insertUpload nextPos => exact ⟨0, List.mem_singleton.1 h⟩
  | putSticker size index oldKeys took stored =>
    obtain ⟨j, -, rfl⟩ := List.mem_map.1 h
    exact ⟨j, rfl⟩
  | insertStickers oldKeys took stored =>
    obtain ⟨j, -, rfl⟩ := List.mem_map.1 h
    exact ⟨j, rfl⟩
  | _ => exact absurd h List.not_mem_nil

theorem selects_of_mem_dooms (h : key ∈ t.dooms) : key ∈ t.selects := by
  cases t with
  | deleteObject idle k rest =>
    obtain rfl := List.mem_singleton.1 h
    exact List.mem_cons_self
  | _ => exact absurd h List.not_mem_nil

/-- What a request in flight is about to insert is not yet settled. -/
theorem ne_of_settled (hi : s.tasks.get? i = some t) (hkey : key ∈ t.pending i) {key' : Key}
    (hkey' : s.Settled key') : key ≠ key' := by
  obtain ⟨n, rfl⟩ := eq_drawn_of_mem_pending hkey
  rintro rfl
  exact Option.some_ne_none t (hi.symm.trans (hkey' i n rfl).2)

theorem Ready.imp (h : s.Ready i t) (hover : ∀ j, s.tasks.Over j → s'.tasks.Over j)
    (hobjects : ∀ key ∈ t.pending i, s.objects key = true → s'.objects key = true)
    (hrows : ∀ key ∈ t.dooms, s'.isReferenced key = true → s.isReferenced key = true) :
    s'.Ready i t where
  pending key hkey := hobjects key hkey (h.pending key hkey)
  settled key hkey j n hn := hover j (h.settled key hkey j n hn)
  unreferenced key hkey := by
    by_contra hne
    have := hrows key hkey (eq_true_of_ne_false hne)
    exact absurd ((h.unreferenced key hkey).symm.trans this) Bool.false_ne_true
  ordered := h.ordered

/-- A task that only keeps keys for later may rely on nothing else. -/
theorem ready_of_selects (hsettled : ∀ key ∈ t.selects, s.Settled key) (hpending : t.pending i = [])
    (hdooms : t.dooms = []) (hordered : t.Ordered) : s.Ready i t where
  pending _ hkey := absurd (hpending ▸ hkey) List.not_mem_nil
  settled := hsettled
  unreferenced _ hkey := absurd (hdooms ▸ hkey) List.not_mem_nil
  ordered := hordered

theorem ready_putFrom {size index : ℕ} {oldKeys took : List Key} {stored : List ℕ}
    (hstored : ∀ j ∈ stored, s.objects (.drawn i j) = true)
    (hold : ∀ key ∈ oldKeys, s.Settled key) (hnodup : stored.Nodup)
    (hlt : ∀ j ∈ stored, j < index) : s.Ready i (.putFrom size index oldKeys took stored) := by
  have hpending : ∀ key ∈ stored.map (Key.drawn i), s.objects key = true := by
    intro key hkey
    obtain ⟨j, hj, rfl⟩ := List.mem_map.1 hkey
    exact hstored j hj
  rw [Task.putFrom]
  split_ifs
  · exact ⟨hpending, hold, fun _ h => absurd h List.not_mem_nil, hnodup, hlt⟩
  · exact ⟨hpending, hold, fun _ h => absurd h List.not_mem_nil, hnodup⟩

namespace Sound

theorem lose (hs : s.Sound) (keys : List Key) : (s.lose keys).Sound where
  stored := hs.stored
  settled := hs.settled
  tasks := hs.tasks.imp fun _ _ _ h => h.imp (fun _ => id) (fun _ _ => id) fun _ _ => id

theorem goOn (hs : s.Sound) (hi : s.tasks.get? i = some u) (ht : s.Ready i t) :
    (s.goOn i t).Sound where
  stored := hs.stored
  settled key hkey j n hn := (hs.settled key hkey j n hn).goOn hi
  tasks := (hs.tasks.goOn hi ht).imp fun _ _ _ h =>
    h.imp (fun _ hj => hj.goOn hi) (fun _ _ => id) fun _ _ => id

theorem finish (hs : s.Sound) : (s.finish i).Sound where
  stored := hs.stored
  settled key hkey j n hn := (hs.settled key hkey j n hn).finish
  tasks := hs.tasks.finish.imp fun _ _ _ h =>
    h.imp (fun _ hj => hj.finish) (fun _ _ => id) fun _ _ => id

theorem spawn (hs : s.Sound) (ht : s.Ready s.tasks.received t) : (s.spawn t).Sound where
  stored := hs.stored
  settled key hkey j n hn := (hs.settled key hkey j n hn).spawn
  tasks := (hs.tasks.spawn ht).imp fun _ _ _ h =>
    h.imp (fun _ hj => hj.spawn) (fun _ _ => id) fun _ _ => id

theorem catchOrphanCleanup (hs : s.Sound) (hkeys : ∀ key ∈ keys, s.Settled key) :
    (s.catchOrphanCleanup idle keys).Sound :=
  hs.spawn (ready_of_selects (fun key hkey => hkeys key (List.mem_eraseDups.1 hkey)) rfl rfl
    trivial)

theorem put (hs : s.Sound) : (s.put key).Sound where
  stored k hk := Bool.or_eq_true_iff.2 (.inr (hs.stored k hk))
  settled := hs.settled
  tasks := hs.tasks.imp fun _ _ _ h =>
    h.imp (fun _ => id) (fun _ _ hk => Bool.or_eq_true_iff.2 (.inr hk)) fun _ _ => id

/-- An object is deleted that nothing refers to, and that no request goes on to insert. -/
theorem remove (hs : s.Sound) (hrows : s.isReferenced key = false) (hkey : s.Settled key) :
    (s.remove key).Sound where
  stored k hk := by
    have hne : k ≠ key := by
      rintro rfl
      exact absurd (hrows.symm.trans hk) Bool.false_ne_true
    exact Bool.and_eq_true_iff.2 ⟨decide_eq_true hne, hs.stored k hk⟩
  settled := hs.settled
  tasks := hs.tasks.imp fun j t hj h =>
    h.imp (fun _ => id) (fun k hk ho =>
      Bool.and_eq_true_iff.2 ⟨decide_eq_true (ne_of_settled hj hk hkey), ho⟩) fun _ _ => id

theorem isReferenced_deleteRows {gone : Sticker → Bool}
    (h : (s.deleteRows gone).isReferenced key = true) : s.isReferenced key = true := by
  rw [isReferenced_iff] at h ⊢
  exact h.imp (fun hmem => (List.filter_sublist.map _).subset hmem) id

theorem deleteRows (hs : s.Sound) (gone : Sticker → Bool) : (s.deleteRows gone).Sound where
  stored k hk := hs.stored k (isReferenced_deleteRows hk)
  settled k hk := hs.settled k (isReferenced_deleteRows hk)
  tasks := hs.tasks.imp fun _ _ _ h =>
    h.imp (fun _ => id) (fun _ _ => id) fun _ _ => isReferenced_deleteRows

end Sound

theorem map_insert {α : Type} (f : Sticker → α) (g : ℤ × Key → α)
    (hfg : ∀ id row, f ⟨id, row.1, row.2⟩ = g row) (s : State) (rows : List (ℤ × Key)) :
    (s.insert rows).stickers.map f = s.stickers.map f ++ rows.map g := by
  rw [insert, List.map_append]
  congr 1
  refine List.ext_getElem (by simp) fun n hn hn' => ?_
  simp [hfg]

theorem isReferenced_insert {rows : List (ℤ × Key)} :
    (s.insert rows).isReferenced key = true ↔
      s.isReferenced key = true ∨ key ∈ rows.map (·.2) := by
  rw [isReferenced_iff, isReferenced_iff, map_insert (·.mediaKey) (·.2) (fun _ _ => rfl),
    List.mem_append]
  exact or_right_comm

/-- A request inserts what it has put into the store, and ends. -/
theorem Sound.insert_finish (hs : s.Sound) (hi : s.tasks.get? i = some u)
    {rows : List (ℤ × Key)} (hrows : ∀ key ∈ rows.map (·.2), key ∈ u.pending i) :
    ((s.insert rows).finish i).Sound where
  stored key hkey := (isReferenced_insert.1 hkey).elim (hs.stored key) fun h =>
    (hs.tasks i u hi).pending key (hrows key h)
  settled key hkey j n hn := by
    rcases isReferenced_insert.1 hkey with h | h
    · exact (hs.settled key h j n hn).finish
    · obtain ⟨m, hm⟩ := eq_drawn_of_mem_pending (hrows key h)
      obtain ⟨rfl, -⟩ := Key.drawn.inj (hn.symm.trans hm)
      exact Tasks.over_finish hi
  tasks := hs.tasks.finish.imp fun j t hj h => by
    refine h.imp (fun _ hk => hk.finish) (fun _ _ => id) fun key hkey href => ?_
    refine (isReferenced_insert.1 href).resolve_right fun hmem => ?_
    -- What is doomed is settled, and what was pending is not.
    exact ne_of_settled hi (hrows key hmem) (h.settled key (selects_of_mem_dooms hkey)) rfl

/-! ## Steps -/

theorem Sound.settled_stickers (hs : s.Sound) :
    ∀ key ∈ s.stickers.map (·.mediaKey), s.Settled key :=
  fun key hkey => hs.settled key (isReferenced_iff.2 (.inl hkey))

theorem rowsOf_keys (i : ℕ) (stored : List ℕ) :
    (rowsOf i stored).map (·.2) = stored.map (.drawn i) := by
  rw [rowsOf, List.map_map]
  rfl

theorem put_self (s : State) (key : Key) : (s.put key).objects key = true :=
  Bool.or_eq_true_iff.2 (.inl (decide_eq_true rfl))

theorem put_of (h : s.objects key = true) (key' : Key) : (s.put key').objects key = true :=
  Bool.or_eq_true_iff.2 (.inr h)

theorem Sound.execute (hs : s.Sound) (hi : s.tasks.get? i = some t) : (s.execute i t).Sound := by
  have hready := hs.tasks i t hi
  cases t with
  | readPositions =>
    rw [State.execute]
    split_ifs
    · exact hs.finish
    · exact hs.goOn hi (ready_of_selects (fun _ h => absurd h List.not_mem_nil) rfl rfl trivial)
  | putUpload nextPos =>
    refine hs.put.goOn hi ⟨fun key hkey => ?_, fun _ h => absurd h List.not_mem_nil,
      fun _ h => absurd h List.not_mem_nil, trivial⟩
    obtain rfl := List.mem_singleton.1 hkey
    exact put_self s _
  | insertUpload nextPos =>
    rw [State.execute]
    split_ifs
    · exact hs.insert_finish hi fun key hkey => hkey
    · exact hs.finish
  | deleteSticker id mediaKey =>
    refine (hs.deleteRows _).finish.catchOrphanCleanup fun key hkey j n hn => ?_
    exact (hready.settled key hkey j n hn).finish
  | readOldKeys size => exact hs.goOn hi (ready_of_selects hs.settled_stickers rfl rfl trivial)
  | deleteStickers size oldKeys =>
    exact (hs.deleteRows _).goOn hi (ready_putFrom (fun _ h => absurd h List.not_mem_nil)
      hready.settled List.nodup_nil fun _ h => absurd h List.not_mem_nil)
  | putSticker size index oldKeys took stored =>
    obtain ⟨hnodup, hlt⟩ := hready.ordered
    refine hs.put.goOn hi (ready_putFrom (fun j hj => ?_) hready.settled ?_ fun j hj => ?_)
    · rcases List.mem_append.1 hj with hj | hj
      · exact put_of (hready.pending _ (List.mem_map_of_mem hj)) _
      · obtain rfl := List.mem_singleton.1 hj
        exact put_self s _
    · exact hnodup.append (List.nodup_singleton _)
        (List.disjoint_singleton.2 fun hmem => Nat.lt_irrefl _ (hlt index hmem))
    · rcases List.mem_append.1 hj with hj | hj
      · exact Nat.lt_succ_of_lt (hlt j hj)
      · exact Nat.lt_succ_of_le (Nat.le_of_eq (List.mem_singleton.1 hj))
  | insertStickers oldKeys took stored =>
    have hold : ∀ {s' : State}, (∀ j, s.tasks.Over j → s'.tasks.Over j) →
        ∀ key ∈ oldKeys, s'.Settled key :=
      fun hover key hkey j n hn => hover j (hready.settled key hkey j n hn)
    rw [State.execute]
    split_ifs
    · exact (hs.lose took).finish.catchOrphanCleanup (hold fun _ h => h.finish)
    · refine (hs.insert_finish hi fun key hkey => ?_).catchOrphanCleanup (hold fun _ h => h.finish)
      rw [rowsOf_keys] at hkey
      exact hkey
    · exact (hs.lose took).finish
  | readKeys => exact hs.goOn hi (ready_of_selects hs.settled_stickers rfl rfl trivial)
  | deletePack keys =>
    have hgone : ({ s with packExists := false } : State).Sound :=
      ⟨hs.stored, hs.settled, hs.tasks.imp fun _ _ _ h =>
        h.imp (fun _ => id) (fun _ _ => id) fun _ _ => id⟩
    refine (hgone.deleteRows _).finish.catchOrphanCleanup fun key hkey j n hn => ?_
    exact (hready.settled key hkey j n hn).finish
  | findReference idle keys =>
    cases keys with
    | nil => exact hs.finish
    | cons key rest =>
      have hrest : ∀ k ∈ rest, s.Settled k :=
        fun k hk => hready.settled k (List.mem_cons_of_mem _ hk)
      refine hs.goOn hi ?_
      split_ifs with href
      · exact ready_of_selects hrest rfl rfl trivial
      · refine ⟨fun _ h => absurd h List.not_mem_nil, hready.settled, fun k hk => ?_, trivial⟩
        obtain rfl := List.mem_singleton.1 hk
        exact eq_false_of_ne_true href
  | deleteObject idle key rest =>
    have hlost := hs.lose (if idle && s.objects key then [key] else [])
    have hremoved := hlost.remove (hready.unreferenced key List.mem_cons_self)
      (hready.settled key List.mem_cons_self)
    exact hremoved.goOn hi (ready_of_selects
      (fun k hk => hready.settled k (List.mem_cons_of_mem _ hk)) rfl rfl trivial)

theorem Sound.abort (hs : s.Sound) (hi : s.tasks.get? i = some t) (h : s.abort i t = some s') :
    s'.Sound := by
  have hready := hs.tasks i t hi
  cases t with
  | putUpload nextPos | insertUpload nextPos => exact Option.some.inj h ▸ hs.finish
  | putSticker size index oldKeys took stored =>
    obtain ⟨hnodup, hlt⟩ := hready.ordered
    refine Option.some.inj h ▸ hs.goOn hi (ready_putFrom (fun j hj => ?_) hready.settled hnodup
      fun j hj => Nat.lt_succ_of_lt (hlt j hj))
    exact hready.pending _ (List.mem_map_of_mem hj)
  | insertStickers oldKeys took stored =>
    rw [State.abort] at h
    split_ifs at h
    exact Option.some.inj h ▸ (hs.lose took).finish
  | findReference idle keys =>
    cases keys with
    | nil => exact absurd h.symm (Option.some_ne_none _)
    | cons key rest =>
      exact Option.some.inj h ▸ hs.goOn hi (ready_of_selects
        (fun k hk => hready.settled k (List.mem_cons_of_mem _ hk)) rfl rfl trivial)
  | deleteObject idle key rest =>
    exact Option.some.inj h ▸ hs.goOn hi (ready_of_selects
      (fun k hk => hready.settled k (List.mem_cons_of_mem _ hk)) rfl rfl trivial)
  | _ => exact absurd h.symm (Option.some_ne_none _)

end State

theorem sound_step {s s' : State} {e : Event} (hs : s.Sound) (h : machine.step s e = some s') :
    s'.Sound := by
  have honPack : ∀ t : Task, s.Ready s.tasks.received t → (s.onPack t).Sound := by
    intro t ht
    rw [State.onPack]
    split_ifs
    · exact hs.spawn ht
    · exact hs
  have hreads : ∀ t : Task, t.selects = [] → t.pending s.tasks.received = [] → t.dooms = [] →
      t.Ordered → s.Ready s.tasks.received t := fun t hselects =>
    State.ready_of_selects fun _ hkey => absurd (hselects ▸ hkey) List.not_mem_nil
  cases e with
  | upload => exact Option.some.inj h ▸ honPack _ (hreads _ rfl rfl rfl trivial)
  | refresh size => exact Option.some.inj h ▸ honPack _ (hreads _ rfl rfl rfl trivial)
  | deletePack => exact Option.some.inj h ▸ honPack _ (hreads _ rfl rfl rfl trivial)
  | deleteSticker id =>
    obtain rfl := Option.some.inj h
    cases hfind : s.stickers.find? (·.id = id) with
    | none => exact hs
    | some x =>
      refine hs.spawn (State.ready_of_selects (fun key hkey => ?_) rfl rfl trivial)
      obtain rfl := List.mem_singleton.1 hkey
      exact hs.settled_stickers _ (List.mem_map_of_mem (List.mem_of_find?_eq_some hfind))
  | resume i =>
    obtain ⟨t, hi, rfl⟩ := Option.map_eq_some_iff.1 h
    exact hs.execute hi
  | fail i =>
    obtain ⟨t, hi, h⟩ := Option.bind_eq_some_iff.1 h
    exact hs.abort hi h

theorem State.IsStart.sound {s : State} (hs : s.IsStart) : s.Sound where
  stored := hs.stored
  settled key hkey j n hn := by
    obtain ⟨m, hm⟩ := hs.old key hkey
    exact absurd (hn.symm.trans hm) (by simp)
  tasks i t hi := by
    rw [hs.tasks] at hi
    exact absurd hi.symm (Option.some_ne_none t)

theorem sound_of_reachable {s : State} (hs : machine.Reachable s) : s.Sound :=
  Machine.Invariant.reachable ⟨fun _ h => State.IsStart.sound h, fun _ _ _ => sound_step⟩ hs

/-! ## What survives -/

/-- No request is in flight. -/
def State.isQuiet (s : State) : Bool := !s.tasks.any Task.isRequest

/-- Every row names an object that is there. -/
def State.Stored (s : State) : Prop := ∀ key, s.isReferenced key = true → s.objects key = true

/-- The stickers have positions of their own, and no refresh that stored nothing took any. -/
structure State.Kept (s : State) : Prop where
  positions : s.positions.Nodup
  lost : s.lost = []

/-- The statement inserts at free positions only, or nothing was taken for it. -/
def State.keeps (s : State) : Task → Bool
  | .insertUpload nextPos => !s.packExists || nextPos ∉ s.positions
  | .insertStickers _ took stored =>
    if stored ≠ [] && s.packExists then stored.all fun j => (j : ℤ) ∉ s.positions else took = []
  | .deleteObject idle key _ => !(idle && s.objects key)
  | _ => true

/-- Nothing was taken for an insertion that fails. -/
def State.keepsFailing : Task → Bool
  | .insertStickers _ took _ => took = []
  | _ => true

def State.meets (s : State) : Event → Bool
  | .resume i => (s.tasks.get? i).all s.keeps
  | .fail i => (s.tasks.get? i).all State.keepsFailing
  | _ => true

namespace State

variable {s s' : State} {i : ℕ} {t : Task}

theorem positions_insert (rows : List (ℤ × Key)) :
    (s.insert rows).positions = s.positions ++ rows.map (·.1) :=
  map_insert (·.position) (·.1) (fun _ _ => rfl) s rows

theorem Kept.deleteRows (hs : s.Kept) (gone : Sticker → Bool) : (s.deleteRows gone).Kept :=
  ⟨hs.positions.sublist (List.filter_sublist.map _), hs.lost⟩

/-- Nothing else of the state matters. -/
theorem Kept.of_eq (hs : s.Kept) (hp : s'.positions = s.positions) (hl : s'.lost = s.lost) :
    s'.Kept :=
  ⟨hp ▸ hs.positions, hl.trans hs.lost⟩

/-! The tasks and the objects do not matter. -/

@[simp] theorem kept_goOn_iff : (s.goOn i t).Kept ↔ s.Kept :=
  ⟨fun h => h.of_eq rfl rfl, fun h => h.of_eq rfl rfl⟩

@[simp] theorem kept_finish_iff : (s.finish i).Kept ↔ s.Kept :=
  ⟨fun h => h.of_eq rfl rfl, fun h => h.of_eq rfl rfl⟩

@[simp] theorem kept_spawn_iff : (s.spawn t).Kept ↔ s.Kept :=
  ⟨fun h => h.of_eq rfl rfl, fun h => h.of_eq rfl rfl⟩

@[simp] theorem kept_catchOrphanCleanup_iff {idle : Bool} {keys : List Key} :
    (s.catchOrphanCleanup idle keys).Kept ↔ s.Kept :=
  kept_spawn_iff

@[simp] theorem kept_put_iff {key : Key} : (s.put key).Kept ↔ s.Kept :=
  ⟨fun h => h.of_eq rfl rfl, fun h => h.of_eq rfl rfl⟩

@[simp] theorem kept_remove_iff {key : Key} : (s.remove key).Kept ↔ s.Kept :=
  ⟨fun h => h.of_eq rfl rfl, fun h => h.of_eq rfl rfl⟩

theorem kept_lose_iff (hs : s.Kept) (keys : List Key) : (s.lose keys).Kept ↔ keys = [] := by
  constructor
  · intro h
    simpa [lose, hs.lost] using h.lost
  · rintro rfl
    exact hs.of_eq rfl (List.append_nil _)

/-- Rows at positions of their own are inserted exactly if these are free. -/
theorem kept_insert_iff (hs : s.Kept) {rows : List (ℤ × Key)} (hrows : (rows.map (·.1)).Nodup) :
    (s.insert rows).Kept ↔ ∀ p ∈ rows.map (·.1), p ∉ s.positions := by
  constructor
  · intro h p hp hmem
    have hnodup := h.positions
    rw [positions_insert] at hnodup
    exact (List.nodup_append.1 hnodup).2.2 p hmem p hp rfl
  · intro hfree
    refine ⟨?_, hs.lost⟩
    rw [positions_insert]
    exact hs.positions.append hrows fun p hmem hp => hfree p hp hmem

theorem kept_execute_iff (hs : s.Kept) (hordered : t.Ordered) :
    (s.execute i t).Kept ↔ s.keeps t = true := by
  cases t with
  | readPositions =>
    rw [execute]
    split_ifs <;> simp [hs, keeps]
  | insertUpload nextPos =>
    rw [execute, keeps]
    split_ifs with hpack
    · have hone : ([(nextPos, Key.drawn i 0)].map (·.1)).Nodup := List.nodup_singleton nextPos
      rw [kept_finish_iff, kept_insert_iff hs hone]
      simp [hpack]
    · simp [hs, hpack]
  | insertStickers oldKeys took stored =>
    rw [execute, keeps]
    by_cases hnone : stored = []
    · rw [if_pos hnone, if_neg (by simp [hnone]), kept_catchOrphanCleanup_iff, kept_finish_iff,
        kept_lose_iff hs, decide_eq_true_eq]
    · by_cases hpack : s.packExists = true
      · rw [if_neg hnone, if_pos hpack, if_pos (by simp [hnone, hpack]),
          kept_catchOrphanCleanup_iff, kept_finish_iff]
        have hpositions : (rowsOf i stored).map (·.1) = stored.map (fun j : ℕ => (j : ℤ)) := by
          rw [rowsOf, List.map_map]
          rfl
        rw [kept_insert_iff hs (hpositions ▸ hordered.map fun _ _ => Int.ofNat.inj), hpositions]
        simp
      · rw [if_neg hnone, if_neg hpack, if_neg (by simp [hpack]), kept_finish_iff,
          kept_lose_iff hs, decide_eq_true_eq]
  | deleteObject idle key rest =>
    rw [execute, keeps, kept_goOn_iff, kept_remove_iff, kept_lose_iff hs]
    cases idle && s.objects key <;> simp
  | deleteSticker id mediaKey => exact iff_of_true (by simp [execute, hs.deleteRows]) rfl
  | deleteStickers size oldKeys => exact iff_of_true (by simp [execute, hs.deleteRows]) rfl
  | deletePack keys =>
    have hgone : ({ s with packExists := false } : State).Kept := hs.of_eq rfl rfl
    exact iff_of_true (by simp [execute, hgone.deleteRows]) rfl
  | findReference idle keys => cases keys <;> simp [execute, keeps, hs]
  | _ => simp [execute, keeps, hs]

theorem kept_abort_iff (hs : s.Kept) (h : s.abort i t = some s') :
    s'.Kept ↔ keepsFailing t = true := by
  cases t with
  | insertStickers oldKeys took stored =>
    rw [abort] at h
    split_ifs at h
    obtain rfl := Option.some.inj h
    rw [keepsFailing, kept_finish_iff, kept_lose_iff hs, decide_eq_true_eq]
  | putUpload | insertUpload | putSticker | deleteObject =>
    obtain rfl := Option.some.inj h
    simp [keepsFailing, hs]
  | findReference idle keys =>
    cases keys with
    | nil => exact absurd h.symm (Option.some_ne_none _)
    | cons key rest =>
      obtain rfl := Option.some.inj h
      simp [keepsFailing, hs]
  | _ => exact absurd h.symm (Option.some_ne_none _)

end State

theorem kept_step_iff {s s' : State} {e : Event} (hs : s.Sound) (hk : s.Kept)
    (h : machine.step s e = some s') : s'.Kept ↔ s.meets e = true := by
  have honPack : ∀ t, (s.onPack t).Kept := by
    intro t
    rw [State.onPack]
    split_ifs <;> simp [hk]
  cases e with
  | upload | refresh | deletePack => exact iff_of_true (Option.some.inj h ▸ honPack _) rfl
  | deleteSticker id =>
    obtain rfl := Option.some.inj h
    refine iff_of_true ?_ rfl
    cases s.stickers.find? (·.id = id) with
    | none => exact hk
    | some x => exact State.kept_spawn_iff.2 hk
  | resume i =>
    obtain ⟨t, hi, rfl⟩ := Option.map_eq_some_iff.1 h
    rw [State.meets, hi, Option.all_some]
    exact State.kept_execute_iff hk (hs.tasks i t hi).ordered
  | fail i =>
    obtain ⟨t, hi, h⟩ := Option.bind_eq_some_iff.1 h
    rw [State.meets, hi, Option.all_some]
    exact State.kept_abort_iff hk h

/-- Every row of a sticker names an object that is there, however the requests overlap and fail.
    The stickers have positions of their own, and no refresh takes any for nothing, in all states of
    exactly the runs that insert at free positions only and replace stickers only by others. -/
theorem survives_iff {s t : State} {es : List Event} (hs : s.IsStart)
    (h : machine.run s es = some t) : machine.Along State.Stored s es ∧
      (machine.Along State.Kept s es ↔
        (machine.restrict fun s e => s.meets e = true).run s es = some t) := by
  refine ⟨fun es₁ es₂ _ u hu => ?_, ?_⟩
  · exact (sound_of_reachable ((Machine.Reachable.init hs).run hu)).stored
  · exact Machine.run_always_iff (fun _ _ _ => sound_step)
      (fun _ _ _ hsound hk => kept_step_iff hsound hk) hs.sound ⟨hs.positions, hs.lost⟩ h

namespace Sample

/-- A pack with one sticker. -/
def start : State where
  packExists := true
  stickers := [⟨0, 0, .old 0⟩]
  nextId := 1
  cloned := fun _ => false
  objects := fun key => key = .old 0
  tasks := .empty
  lost := []

/-- Two uploads, one after the other. -/
def uploads : List Event :=
  [.upload, .resume 0, .resume 0, .resume 0, .upload, .resume 1, .resume 1, .resume 1]

/-- Two uploads read the positions before either inserts. -/
def overlappingUploads : List Event :=
  [.upload, .upload, .resume 0, .resume 1, .resume 0, .resume 1, .resume 0, .resume 1]

/-- A refresh whose only download fails, and the clean-up after it. -/
def failedRefresh : List Event :=
  [.refresh 1, .resume 0, .resume 0, .fail 0, .resume 0, .resume 1, .resume 1, .resume 1]

theorem start_isStart : start.IsStart where
  ids := by decide
  id_lt := by decide
  positions := by decide
  old key hkey := by
    rcases State.isReferenced_iff.1 hkey with h | h
    · exact ⟨0, List.mem_singleton.1 h⟩
    · exact absurd h Bool.false_ne_true
  stored key hkey := by
    rcases State.isReferenced_iff.1 hkey with h | h
    · exact decide_eq_true (List.mem_singleton.1 h)
    · exact absurd h Bool.false_ne_true
  tasks := rfl
  lost := rfl

end Sample

open Sample

theorem survives_iff_uploads : machine.Along State.Kept start uploads := by
  have hmeets :
      ((machine.restrict fun s e => s.meets e = true).run start uploads).isSome = true := by decide
  obtain ⟨t, ht⟩ := Option.isSome_iff_exists.1 hmeets
  exact (survives_iff start_isStart (Machine.run_of_restrict ht)).2.2 ht

/-- Once no request is in flight any more, two stickers share a position, or the stickers and their
    objects are gone after a refresh that stored nothing. -/
theorem stickers_lost : start.IsStart ∧
    ((machine.run start overlappingUploads).map fun t => (t.isQuiet, t.positions)) =
      some (true, [0, 1, 1]) ∧
    ((machine.run start failedRefresh).map fun t =>
      (t.isQuiet, t.stickers, t.objects (.old 0), t.lost)) =
        some (true, [], false, [.old 0, .old 0]) :=
  ⟨start_isStart, by decide⟩

end OneToThree.StickerPacks
