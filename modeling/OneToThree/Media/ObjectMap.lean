import OneToThree.Media.FsObjectStore

/-!
# The object store as a map

What the store has is what was put and not deleted since. The store behaves as that map where
every `get` returns what the map has, and where reading the listings page by page returns what
the map has, each key once and in order.

The listing takes every file whose name ends like that of a temporary file for an upload in
flight, and the validation lets keys with such names pass. The store behaves as the map as long
as nothing is put under such a key, and no longer (`behaves_iff`).
-/

namespace FsObjectStore

open FileTree

inductive Request
  | put (p : PutParams)
  | get (bucket key : Text)
  | delete (bucket key : Text)
  | list (p : ListParams)

/-- The store, and what was put under a bucket and a key and not deleted since. -/
structure Store where
  disk : Disk
  objects : Text → Text → Option Bytes

def Store.empty : Store := ⟨∅, fun _ _ => none⟩

/-- What the map has after a put or a deletion under a bucket and a key. -/
def Store.write (s : Store) (bucket key : Text) (bytes : Option Bytes) (disk : Disk) : Store :=
  ⟨disk, fun b k => if b = bucket ∧ k = key then bytes else s.objects b k⟩

def Store.serve (root : List Text) (s : Store) : Request → Store
  | .put p =>
    match putObject root p s.disk with
    | (.ok _, disk) => s.write p.bucket p.key (some p.body.bytes) disk
    | (.error _, disk) => { s with disk }
  | .delete bucket key => s.write bucket key none (deleteObject root bucket key s.disk)
  | .get _ _ => s
  | .list _ => s

def run (root : List Text) (requests : List Request) : Store :=
  requests.foldl (Store.serve root) .empty

/-- The pages of a listing, each behind the last key of the one before. -/
def listAll (root : List Text) (p : ListParams) (disk : Disk) (n : ℕ) : Option (List StoredObject) :=
  Paging.pages (fun o => some o.key)
    (fun startAfter => (listObjects root { p with startAfter } disk).toOption) n p.startAfter

/-- The store behaves as the map. -/
structure Store.Behaves (root : List Text) (s : Store) : Prop where
  get : ∀ bucket key, (getObjectBuffer root bucket key s.disk).toOption = s.objects bucket key
  list : ∀ p : ListParams, isValidBucketName p.bucket = true → ∃ objects : List StoredObject,
    (∀ n, objects.length < n → listAll root p s.disk n = some objects) ∧
    objects.Pairwise (fun a b => keyLt a.key b.key = true) ∧
    ∀ o, o ∈ objects ↔ ∃ bytes, s.objects p.bucket o.key = some bytes ∧ o.size = bytes.length ∧
      (p.keyPrefix.getD []).isPrefixOf o.key = true ∧ behind p.startAfter o = true

/-- A put that succeeds under a key whose last name looks like that of a temporary file. -/
def PutsTempName (root : List Text) (s : Store) (r : Request) : Prop :=
  ∃ p written, r = .put p ∧ (putObject root p s.disk).1 = .ok written ∧
    isTempName (baseName p.key) = true

/-! ## The order of keys -/

theorem keyLt_irrefl (s : Text) : keyLt s s = false := by
  induction s with
  | nil => rfl
  | cons a s ih => rw [keyLt, ih, Bool.and_false, Bool.or_false, decide_eq_false (Nat.lt_irrefl _)]

theorem keyLt_cons {a b : Char} {s t : Text} :
    keyLt (a :: s) (b :: t) = true ↔ a.toNat < b.toNat ∨ a = b ∧ keyLt s t = true := by
  rw [keyLt, Bool.or_eq_true, Bool.and_eq_true, decide_eq_true_eq, beq_iff_eq]

theorem keyLt_trans {s t u : Text} (hst : keyLt s t = true) (htu : keyLt t u = true) :
    keyLt s u = true := by
  induction s generalizing t u with
  | nil =>
    cases t with
    | nil => cases hst
    | cons b t =>
      cases u with
      | nil => cases htu
      | cons c u => rfl
  | cons a s ih =>
    cases t with
    | nil => cases hst
    | cons b t =>
      cases u with
      | nil => cases htu
      | cons c u =>
        rw [keyLt_cons] at hst htu ⊢
        rcases hst with hab | ⟨rfl, hst⟩
        · rcases htu with hbc | ⟨rfl, -⟩
          · exact .inl (hab.trans hbc)
          · exact .inl hab
        · rcases htu with hbc | ⟨rfl, htu⟩
          · exact .inl hbc
          · exact .inr ⟨rfl, ih hst htu⟩

theorem keyLt_asymm {s t : Text} (h : keyLt s t = true) : keyLt t s = false := by
  refine eq_false_of_ne_true fun h' => ?_
  exact Bool.false_ne_true ((keyLt_irrefl s).symm.trans (keyLt_trans h h'))

theorem keyLt_total {s t : Text} (h : keyLt s t = false) : s = t ∨ keyLt t s = true := by
  induction s generalizing t with
  | nil =>
    cases t with
    | nil => exact .inl rfl
    | cons b t => cases h
  | cons a s ih =>
    cases t with
    | nil => exact .inr rfl
    | cons b t =>
      rw [keyLt_cons]
      rw [keyLt, Bool.or_eq_false_iff, decide_eq_false_iff_not] at h
      rcases Nat.lt_trichotomy a.toNat b.toNat with hlt | heq | hgt
      · exact absurd hlt h.1
      · obtain rfl : a = b := Char.toNat_inj.1 heq
        rw [BEq.rfl, Bool.true_and] at h
        rcases ih h.2 with rfl | hts
        · exact .inl rfl
        · exact .inr (.inr ⟨rfl, hts⟩)
      · exact .inr (.inl hgt)

/-! ## Listings -/

variable {root : List Text} {disk disk' : Disk} {p : ListParams}

/-- The files of a disk are objects. -/
structure Filed (root : List Text) (disk : Disk) : Prop where
  closed : Closed disk
  object : ∀ path bytes, disk.get? path = some (.file bytes) →
    ∃ bucket key, objectPath root bucket key = .ok path

/-- A file below the directory of a bucket. -/
theorem Filed.key_of_get? (h : Filed root disk) {bucket : Text} {rest : List Text} {bytes : Bytes}
    (hget : disk.get? (root ++ [bucket] ++ rest) = some (.file bytes)) :
    ∃ key, rest = key.splitOn '/' ∧ objectPath root bucket key = .ok (root ++ [bucket] ++ rest) := by
  obtain ⟨b, key, hpath⟩ := h.object _ _ hget
  have heq := (objectPath_eq_ok.1 hpath).2.2
  rw [List.append_assoc, List.append_assoc, List.singleton_append, List.singleton_append] at heq
  obtain ⟨rfl, hrest⟩ := List.cons.inj (List.append_cancel_left heq)
  exact ⟨key, hrest, hpath⟩

/-- What a listing finds: the objects of the bucket whose names are not those of temporary
    files, with the prefix and behind `startAfter`. -/
theorem mem_found (h : Filed root disk) (hbucket : isValidBucketName p.bucket = true)
    {o : StoredObject} : o ∈ found root p disk ↔
      ∃ full bytes, objectPath root p.bucket o.key = .ok full ∧
        disk.get? full = some (.file bytes) ∧ o.size = bytes.length ∧
        isTempName (baseName o.key) = false ∧
        (p.keyPrefix.getD []).isPrefixOf o.key = true ∧ behind p.startAfter o = true := by
  rw [found, resolve_bucket hbucket, List.mem_filter, List.mem_map, Bool.and_eq_true]
  constructor
  · rintro ⟨⟨⟨rest, bytes⟩, hmem, rfl⟩, hshown⟩
    obtain ⟨hwalk, htemp⟩ := List.mem_filter.1 hmem
    obtain ⟨hrest, hget⟩ := (mem_walk_depth h.closed).1 hwalk
    obtain ⟨key, rfl, hpath⟩ := h.key_of_get? hget
    rw [toObject, List.intercalate_splitOn] at hshown ⊢
    exact ⟨_, bytes, hpath, hget, rfl, by simpa [baseName] using htemp, hshown⟩
  · rintro ⟨full, bytes, hpath, hget, hsize, htemp, hshown⟩
    obtain ⟨-, -, rfl⟩ := objectPath_eq_ok.1 hpath
    refine ⟨⟨(o.key.splitOn '/', bytes), List.mem_filter.2 ⟨?_, ?_⟩, ?_⟩, hshown⟩
    · exact (mem_walk_depth h.closed).2 ⟨List.splitOn_ne_nil _ _, hget⟩
    · rw [← baseName, htemp]
      rfl
    · rw [toObject, List.intercalate_splitOn, ← hsize]

/-- A listing finds each key once. -/
theorem found_keys_ne (h : Filed root disk) (hbucket : isValidBucketName p.bucket = true) :
    (found root p disk).Pairwise fun a b => a.key ≠ b.key := by
  rw [found, resolve_bucket hbucket]
  have hwalk := List.pairwise_map.1 (nodup_walk disk (depth disk) (root ++ [p.bucket]))
  refine (List.pairwise_map.2 ?_).filter _
  refine (hwalk.filter _).imp_of_mem fun {f g} hf hg hne heq => hne ?_
  obtain ⟨-, hgetf⟩ := (mem_walk_depth h.closed).1 (List.mem_of_mem_filter hf)
  obtain ⟨-, hgetg⟩ := (mem_walk_depth h.closed).1 (List.mem_of_mem_filter hg)
  obtain ⟨k, hk, -⟩ := h.key_of_get? hgetf
  obtain ⟨k', hk', -⟩ := h.key_of_get? hgetg
  rw [toObject, toObject, hk, hk', List.intercalate_splitOn, List.intercalate_splitOn] at heq
  rw [hk, hk', show k = k' from heq]

/-- What a listing finds, in order. -/
def sorted (root : List Text) (p : ListParams) (disk : Disk) : List StoredObject :=
  (found root p disk).insertionSort fun a b => keyLt b.key a.key = false

theorem sorted_pairwise (h : Filed root disk) (hbucket : isValidBucketName p.bucket = true) :
    (sorted root p disk).Pairwise fun a b => keyLt a.key b.key = true := by
  have htotal : Std.Total fun a b : StoredObject => keyLt b.key a.key = false := by
    refine ⟨fun a b => ?_⟩
    cases hab : keyLt b.key a.key with
    | false => exact .inl rfl
    | true => exact .inr (keyLt_asymm hab)
  have htrans : IsTrans StoredObject fun a b => keyLt b.key a.key = false := by
    refine ⟨fun a b c hab hbc => eq_false_of_ne_true fun hca => ?_⟩
    rcases keyLt_total hbc with heq | hbc'
    · rw [heq, hab] at hca
      cases hca
    · rw [keyLt_trans hbc' hca] at hab
      cases hab
  have hle := List.pairwise_insertionSort (fun a b => keyLt b.key a.key = false) (found root p disk)
  have hne := (found_keys_ne h hbucket).perm
    (List.perm_insertionSort (fun a b => keyLt b.key a.key = false) (found root p disk)).symm Ne.symm
  refine (hle.and hne).imp fun {a b} hab => ?_
  exact (keyLt_total hab.1).resolve_left hab.2.symm

theorem sorted_perm : (sorted root p disk).Perm (found root p disk) :=
  List.perm_insertionSort _ _

/-- Of what is found, a listing keeps what is behind `startAfter`. -/
theorem sorted_eq (h : Filed root disk) (hbucket : isValidBucketName p.bucket = true) :
    sorted root p disk =
      (sorted root { p with startAfter := none } disk).filter (behind p.startAfter) := by
  have hfound : found root p disk =
      (found root { p with startAfter := none } disk).filter (behind p.startAfter) := by
    rw [found, found, List.filter_filter]
    refine List.filter_congr fun o _ => ?_
    rw [Bool.and_comm, behind, Bool.and_true]
  refine List.Perm.eq_of_pairwise (fun a b _ _ hab hba => ?_) (sorted_pairwise h hbucket)
    ((sorted_pairwise (p := { p with startAfter := none }) h hbucket).filter _) ?_
  · rw [keyLt_asymm hab] at hba
    cases hba
  · refine sorted_perm.trans ?_
    rw [hfound]
    exact sorted_perm.symm.filter _

theorem listObjects_eq (h : Filed root disk) (hbucket : isValidBucketName p.bucket = true) :
    listObjects root p disk = .ok (Paging.page behind (pageSize p.maxKeys)
      (sorted root { p with startAfter := none } disk) p.startAfter) := by
  rw [listObjects, hbucket, Paging.page, ← sorted_eq h hbucket]
  rfl

theorem inOrder (h : Filed root disk) (hbucket : isValidBucketName p.bucket = true) :
    Paging.InOrder behind (fun o => some o.key) (sorted root p disk) := by
  have hne : ∀ o ∈ sorted root p disk, o.key.isEmpty = false := by
    intro o ho
    obtain ⟨full, -, hpath, -⟩ := (mem_found h hbucket).1 (sorted_perm.mem_iff.1 ho)
    rw [List.isEmpty_eq_false_iff]
    exact ne_nil_of_valid (objectPath_eq_ok.1 hpath).2.1
  refine ⟨(sorted_pairwise h hbucket).imp_of_mem fun {a b} ha hb hab => ⟨?_, ?_⟩, fun a ha => ?_⟩
  · rw [behind, hab, Bool.or_true]
  · rw [behind, hne b hb, keyLt_asymm hab, Bool.or_self]
  · rw [behind, hne a ha, keyLt_irrefl, Bool.or_self]

theorem behind_trans (c : Option Text) (a b : StoredObject) (ha : behind c a = true)
    (hb : behind (some a.key) b = true) : behind c b = true := by
  cases c with
  | none => rfl
  | some s =>
    rw [behind, Bool.or_eq_true] at ha hb ⊢
    rcases ha with hs | ha
    · exact .inl hs
    · rcases hb with hnil | hb
      · rw [List.isEmpty_iff.1 hnil] at ha
        cases s with
        | nil => exact .inl rfl
        | cons c s => cases ha
      · exact .inr (keyLt_trans ha hb)

/-- The pages of a listing are what it finds, in order. -/
theorem listAll_eq (h : Filed root disk) (hbucket : isValidBucketName p.bucket = true) {n : ℕ}
    (hn : (sorted root p disk).length < n) : listAll root p disk n = some (sorted root p disk) := by
  have hpage : (fun startAfter => (listObjects root { p with startAfter } disk).toOption) =
      fun c => some (Paging.page behind (pageSize p.maxKeys)
        (sorted root { p with startAfter := none } disk) c) := by
    funext c
    rw [listObjects_eq (p := { p with startAfter := c }) h hbucket]
    rfl
  rw [sorted_eq h hbucket] at hn ⊢
  rw [listAll, hpage]
  exact Paging.pages_page behind_trans (inOrder (p := { p with startAfter := none }) h hbucket)
    (Nat.lt_of_lt_of_le Nat.zero_lt_one (Nat.le_max_left _ _)) hn

/-! ## Runs -/

variable {s : Store}

/-- The files of the disk are what the map has, under names that are not those of temporary
    files. -/
structure Store.Sound (root : List Text) (s : Store) : Prop where
  closed : Closed s.disk
  file : ∀ path bytes, s.disk.get? path = some (.file bytes) ↔
    ∃ bucket key, objectPath root bucket key = .ok path ∧ s.objects bucket key = some bytes
  path : ∀ bucket key bytes, s.objects bucket key = some bytes →
    ∃ path, objectPath root bucket key = .ok path
  name : ∀ bucket key bytes, s.objects bucket key = some bytes → isTempName (baseName key) = false

theorem Store.Sound.filed (h : s.Sound root) : Filed root s.disk := by
  refine ⟨h.closed, fun path bytes hget => ?_⟩
  obtain ⟨bucket, key, hpath, -⟩ := (h.file path bytes).1 hget
  exact ⟨bucket, key, hpath⟩

/-- The file of an object is what the map has. -/
theorem Store.Sound.get?_iff (h : s.Sound root) {bucket key : Text} {path : List Text}
    {bytes : Bytes} (hpath : objectPath root bucket key = .ok path) :
    s.disk.get? path = some (.file bytes) ↔ s.objects bucket key = some bytes := by
  rw [h.file]
  constructor
  · rintro ⟨b, k, hpath', hobject⟩
    obtain ⟨rfl, rfl⟩ := objectPath_injective hpath hpath'
    exact hobject
  · exact fun hobject => ⟨bucket, key, hpath, hobject⟩

theorem Store.Sound.behaves (h : s.Sound root) : s.Behaves root := by
  refine ⟨fun bucket key => Option.ext fun bytes => ?_, fun p hbucket => ?_⟩
  · rw [getObjectBuffer]
    cases hpath : objectPath root bucket key with
    | error e =>
      refine iff_of_false (Option.some_ne_none _ ·.symm) fun hobject => ?_
      obtain ⟨path, hok⟩ := h.path _ _ _ hobject
      rw [hpath] at hok
      cases hok
    | ok path =>
      rw [← h.get?_iff hpath]
      dsimp only
      split
      next bytes' hget =>
        rw [hget, Option.some.injEq, Entry.file.injEq]
        exact Option.some.injEq bytes' bytes ▸ Iff.rfl
      next hno => exact iff_of_false (Option.some_ne_none _ ·.symm) (hno bytes)
  · refine ⟨sorted root p s.disk, fun n hn => listAll_eq h.filed hbucket hn,
      sorted_pairwise h.filed hbucket, fun o => ?_⟩
    rw [sorted_perm.mem_iff, mem_found h.filed hbucket]
    constructor
    · rintro ⟨full, bytes, hpath, hget, hsize, -, hshown⟩
      exact ⟨bytes, (h.get?_iff hpath).1 hget, hsize, hshown⟩
    · rintro ⟨bytes, hobject, hsize, hshown⟩
      obtain ⟨full, hpath⟩ := h.path _ _ _ hobject
      exact ⟨full, bytes, hpath, (h.get?_iff hpath).2 hobject, hsize, h.name _ _ _ hobject, hshown⟩

theorem Store.Sound.empty : Store.empty.Sound root where
  closed := fun p x e he _ => by cases he
  file := fun path bytes => iff_of_false (Option.some_ne_none _ ·.symm)
    fun ⟨_, _, _, h⟩ => Option.some_ne_none _ h.symm
  path := fun _ _ _ h => absurd h.symm (Option.some_ne_none _)
  name := fun _ _ _ h => absurd h.symm (Option.some_ne_none _)

/-- The temporary file of an upload is no file of a sound store. -/
theorem Store.Sound.tmpPath_ne (h : s.Sound root) (full : List Text) (uuid : Uuid) (bytes : Bytes) :
    s.disk.get? (tmpPath full uuid) ≠ some (.file bytes) := by
  intro hget
  obtain ⟨bucket, key, hpath, hobject⟩ := (h.file _ _).1 hget
  have hlast := getLast?_objectPath hpath
  rw [getLast?_tmpPath, Option.some.injEq] at hlast
  have hname := h.name _ _ _ hobject
  rw [← hlast, isTempName_tmpName] at hname
  cases hname

/-- Of the map, a write changes what is under its bucket and key. -/
theorem objects_write (bucket key : Text) (bytes : Option Bytes) (disk : Disk) (b k : Text) :
    (s.write bucket key bytes disk).objects b k =
      if b = bucket ∧ k = key then bytes else s.objects b k := rfl

/-- After a put that succeeds, the files are what the map has. -/
theorem file_put (h : s.Sound root) {p : PutParams} {full : List Text}
    (hfull : objectPath root p.bucket p.key = .ok full) {disk' : Disk}
    (hfiles : ∀ path bytes, disk'.get? path = some (.file bytes) ↔
      if path = full then bytes = p.body.bytes else s.disk.get? path = some (.file bytes))
    (path : List Text) (bytes : Bytes) : disk'.get? path = some (.file bytes) ↔
      ∃ bucket key, objectPath root bucket key = .ok path ∧
        (s.write p.bucket p.key (some p.body.bytes) disk').objects bucket key = some bytes := by
  rw [hfiles]
  split
  next hpath =>
    subst hpath
    constructor
    · rintro rfl
      exact ⟨_, _, hfull, by rw [objects_write, if_pos ⟨rfl, rfl⟩]⟩
    · rintro ⟨b, k, hb, hobject⟩
      rw [objects_write, if_pos (objectPath_injective hb hfull)] at hobject
      exact (Option.some.inj hobject).symm
  next hpath =>
    rw [h.file]
    have hother : ∀ b k, objectPath root b k = .ok path → ¬(b = p.bucket ∧ k = p.key) := by
      rintro b k hb ⟨rfl, rfl⟩
      exact hpath (Except.ok.inj (hb.symm.trans hfull))
    constructor
    · rintro ⟨b, k, hb, hobject⟩
      exact ⟨b, k, hb, by rwa [objects_write, if_neg (hother b k hb)]⟩
    · rintro ⟨b, k, hb, hobject⟩
      rw [objects_write, if_neg (hother b k hb)] at hobject
      exact ⟨b, k, hb, hobject⟩

theorem Store.Sound.put (h : s.Sound root) {p : PutParams}
    (hname : ¬PutsTempName root s (.put p)) : (s.serve root (.put p)).Sound root := by
  rw [Store.serve]
  split
  next written disk' hput =>
    obtain ⟨-, full, hfull, hclosed, hfiles⟩ := putObject_ok h.closed hput
      fun full _ => h.tmpPath_ne full p.uuid
    refine ⟨hclosed, file_put h hfull hfiles, fun b k bytes hobject => ?_,
      fun b k bytes hobject => ?_⟩
    · rw [objects_write] at hobject
      split at hobject
      next hkey => exact ⟨full, by rw [hkey.1, hkey.2, hfull]⟩
      next => exact h.path _ _ _ hobject
    · rw [objects_write] at hobject
      split at hobject
      next hkey =>
        rw [hkey.2]
        exact eq_false_of_ne_true fun htemp => hname ⟨p, written, rfl, by rw [hput], htemp⟩
      next => exact h.name _ _ _ hobject
  next e disk' hput =>
    obtain ⟨hclosed, hfiles⟩ := putObject_error h.closed hput fun full _ => h.tmpPath_ne full p.uuid
    exact ⟨hclosed, fun path bytes => (hfiles path bytes).trans (h.file path bytes), h.path, h.name⟩

theorem Store.Sound.delete (h : s.Sound root) (bucket key : Text) :
    (s.serve root (.delete bucket key)).Sound root := by
  have hobject : ∀ {b k bytes}, (s.serve root (.delete bucket key)).objects b k = some bytes ↔
      ¬(b = bucket ∧ k = key) ∧ s.objects b k = some bytes := by
    intro b k bytes
    rw [Store.serve, objects_write]
    split
    next hkey => simp [hkey]
    next hkey => simp [hkey]
  refine ⟨?_, fun path bytes => ?_, fun b k bytes hb => h.path _ _ _ (hobject.1 hb).2,
    fun b k bytes hb => h.name _ _ _ (hobject.1 hb).2⟩
  · change Closed (deleteObject root bucket key s.disk)
    rw [deleteObject]
    split
    · exact h.closed
    · exact h.closed.rm _
  · change (deleteObject root bucket key s.disk).get? path = _ ↔ _
    simp only [hobject]
    rw [deleteObject]
    split
    next e herror =>
      rw [h.file]
      have hother : ∀ b k, objectPath root b k = .ok path → ¬(b = bucket ∧ k = key) := by
        rintro b k hb ⟨rfl, rfl⟩
        rw [herror] at hb
        cases hb
      constructor
      · rintro ⟨b, k, hb, hbytes⟩
        exact ⟨b, k, hb, hother b k hb, hbytes⟩
      · rintro ⟨b, k, hb, -, hbytes⟩
        exact ⟨b, k, hb, hbytes⟩
    next full hfull =>
      rw [get?_rm_file, h.file]
      constructor
      · rintro ⟨hne, b, k, hb, hbytes⟩
        refine ⟨b, k, hb, ?_, hbytes⟩
        rintro ⟨rfl, rfl⟩
        exact hne (Except.ok.inj (hb.symm.trans hfull))
      · rintro ⟨b, k, hb, hne, hbytes⟩
        refine ⟨?_, b, k, hb, hbytes⟩
        rintro rfl
        exact hne (objectPath_injective hb hfull)

theorem Store.Sound.serve (h : s.Sound root) {r : Request} (hr : ¬PutsTempName root s r) :
    (s.serve root r).Sound root := by
  cases r with
  | put p => exact h.put hr
  | get | list => exact h
  | delete bucket key => exact h.delete bucket key

/-- What is put under a name like that of a temporary file is there, and is not listed. -/
theorem Store.Sound.not_behaves (h : s.Sound root) {r : Request} (hr : PutsTempName root s r) :
    ¬(s.serve root r).Behaves root := by
  obtain ⟨p, written, rfl, hok, htemp⟩ := hr
  cases hput : putObject root p s.disk with
  | mk reply disk' =>
    rw [hput] at hok
    subst hok
    obtain ⟨-, full, hfull, hclosed, hfiles⟩ := putObject_ok h.closed hput
      fun full _ => h.tmpPath_ne full p.uuid
    have hserve : s.serve root (.put p) = s.write p.bucket p.key (some p.body.bytes) disk' := by
      rw [Store.serve, hput]
    have hfiled : Filed root disk' := by
      refine ⟨hclosed, fun path bytes hget => ?_⟩
      obtain ⟨b, k, hb, -⟩ := (file_put h hfull hfiles path bytes).1 hget
      exact ⟨b, k, hb⟩
    have hbucket := (objectPath_eq_ok.1 hfull).1
    rw [hserve]
    intro hbehaves
    obtain ⟨objects, hpages, -, hmem⟩ := hbehaves.list ⟨p.bucket, none, none, none⟩ hbucket
    -- The listing has what is found, and so has no object of this name.
    have hlist := listAll_eq hfiled (p := ⟨p.bucket, none, none, none⟩) hbucket
      (Nat.lt_succ_of_le (Nat.le_max_left _ objects.length))
    have hobjects := (hpages _ (Nat.lt_succ_of_le (Nat.le_max_right _ _))).symm.trans hlist
    have hin := (hmem ⟨p.key, p.body.bytes.length⟩).2
      ⟨p.body.bytes, by rw [objects_write, if_pos ⟨rfl, rfl⟩], rfl, rfl, rfl⟩
    rw [Option.some.inj hobjects, sorted_perm.mem_iff, mem_found hfiled hbucket] at hin
    obtain ⟨-, -, -, -, -, hno, -⟩ := hin
    rw [htemp] at hno
    cases hno

theorem run_concat (done : List Request) (r : Request) :
    run root (done ++ [r]) = (run root done).serve root r := by
  rw [run, List.foldl_concat]
  rfl

/-- As long as the store behaves as the map, or nothing is put under a name like that of a
    temporary file, it is sound. -/
theorem sound_of_run {requests : List Request}
    (h : ∀ done r rest, requests = done ++ r :: rest →
      (run root done).Sound root → ¬PutsTempName root (run root done) r) {done rest : List Request}
    (hdone : requests = done ++ rest) : (run root done).Sound root := by
  induction done using List.reverseRecOn generalizing rest with
  | nil => exact .empty
  | append_singleton done r ih =>
    rw [List.append_assoc, List.singleton_append] at hdone
    rw [run_concat]
    exact (ih hdone).serve (h done r rest hdone (ih hdone))

/-- **The object store is a map.** Each object has a path of its own below the directory of its
    bucket; and after each request of a run the store behaves as the map, exactly if no request
    puts an object under a key whose last name looks like that of a temporary file. -/
theorem behaves_iff (root : List Text) (requests : List Request) :
    (∀ bucket key, isValidBucketName bucket = true → isValidObjectKey key = true →
      ∃ names, names ≠ [] ∧ objectPath root bucket key = .ok (root ++ [bucket] ++ names)) ∧
    (∀ bucket key bucket' key' path, objectPath root bucket key = .ok path →
      objectPath root bucket' key' = .ok path → bucket = bucket' ∧ key = key') ∧
    ((∀ done rest, requests = done ++ rest → (run root done).Behaves root) ↔
      ∀ done r rest, requests = done ++ r :: rest → ¬PutsTempName root (run root done) r) := by
  refine ⟨fun bucket key hbucket hkey => ?_, fun _ _ _ _ _ => objectPath_injective, ?_, ?_⟩
  · exact ⟨_, List.splitOn_ne_nil _ _, objectPath_eq_ok.2 ⟨hbucket, hkey, rfl⟩⟩
  · intro hbehaves
    have hnot : ∀ done r rest, requests = done ++ r :: rest → (run root done).Sound root →
        ¬PutsTempName root (run root done) r := by
      intro done r rest heq hsound hputs
      refine hsound.not_behaves hputs ?_
      rw [← run_concat]
      exact hbehaves (done ++ [r]) rest (by rw [heq, List.append_assoc, List.singleton_append])
    exact fun done r rest heq => hnot done r rest heq (sound_of_run hnot heq)
  · intro hnot done rest heq
    exact (sound_of_run (fun done r rest heq _ => hnot done r rest heq) heq).behaves

namespace Sample

def uuid : Uuid := ⟨"01234567-89ab-cdef-0123-456789abcdef".toList, by decide, by decide⟩

/-- A backup of a file, as some tools name it. -/
def backup : PutParams where
  bucket := "media".toList
  key := "a.tmp-89abcdef-0123-4567-89ab-cdef01234567".toList
  body := .buffer [1] false
  maxBytes := none
  uuid := uuid

end Sample

theorem putsTempName_backup : PutsTempName [] .empty (.put Sample.backup) :=
  ⟨Sample.backup, 1, rfl, by decide +kernel, by decide +kernel⟩

/-- An object is put, and no listing shows it. -/
theorem put_and_not_listed :
    ¬∀ root requests done rest, requests = done ++ rest → (run root done).Behaves root := by
  intro h
  have hsound : Store.empty.Sound [] := .empty
  exact hsound.not_behaves putsTempName_backup (h [] [.put Sample.backup] [.put Sample.backup] [] rfl)

end FsObjectStore
