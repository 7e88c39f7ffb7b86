import Mathlib.Data.List.Induction
import OneToThree.Lib.InsMap

/-!
# Trees of files

A disk maps paths, which are lists of names, to files and directories; the empty path is the
root. In a disk that is `Closed`, what there is lies in a directory.

* `mkdirs` makes a directory with all those above it, unless a file is in the way. It changes
  no file (`get?_mkdirs_file`).
* `walk` goes through a directory and those below it, and finds the files there, each once
  (`mem_walk`, `nodup_walk`).
-/

namespace FileTree

variable {N B : Type}

inductive Entry (B : Type)
  | file (body : B)
  | dir
  deriving DecidableEq

abbrev Disk (N B : Type) := InsMap (List N) (Entry B)

/-- A path in a directory, by the name it has there. -/
def nameIn [DecidableEq N] (dir p : List N) : Option N :=
  if p.dropLast = dir then p.getLast? else none

variable [DecidableEq N]

/-- What lies in a directory. -/
def readdir (disk : Disk N B) (dir : List N) : List (N × Entry B) :=
  disk.entries.filterMap fun p => (nameIn dir p.1).map fun x => (x, p.2)

/-- The directories `done ++ rest`, and those above it, below `done`; and whether they are all
    there then. -/
def mkdirs : List N → List N → Disk N B → Disk N B × Bool
  | _, [], disk => (disk, true)
  | done, x :: rest, disk =>
    match disk.get? (done ++ [x]) with
    | some (.file _) => (disk, false)
    | some .dir => mkdirs (done ++ [x]) rest disk
    | none => mkdirs (done ++ [x]) rest (disk.set (done ++ [x]) .dir)

/-- Writing a file, unless a directory is there. -/
def writeFile (path : List N) (body : B) (disk : Disk N B) : Option (Disk N B) :=
  match disk.get? path with
  | some .dir => none
  | _ => some (disk.set path (.file body))

/-- Removing a file; nothing else is removed. -/
def rm (path : List N) (disk : Disk N B) : Disk N B :=
  match disk.get? path with
  | some (.file _) => disk.delete path
  | _ => disk

/-- Renaming a file, which replaces a file, but no directory. -/
def rename (src dst : List N) (disk : Disk N B) : Option (Disk N B) :=
  match disk.get? src, disk.get? dst with
  | some (.file _), some .dir => none
  | some (.file body), _ => some ((disk.delete src).set dst (.file body))
  | _, _ => none

/-- The files below a directory, so many directories deep at most, by their paths from there. -/
def walk (disk : Disk N B) : ℕ → List N → List (List N × B)
  | 0, _ => []
  | n + 1, dir => (readdir disk dir).flatMap fun e =>
    match e.2 with
    | .file body => [([e.1], body)]
    | .dir => (walk disk n (dir ++ [e.1])).map fun f => (e.1 :: f.1, f.2)

/-- How deep a disk is. -/
def depth (disk : Disk N B) : ℕ := disk.keys.foldr (fun p n => max p.length n) 0

/-- What there is lies in a directory. -/
def Closed (disk : Disk N B) : Prop :=
  ∀ p x e, disk.get? (p ++ [x]) = some e → p ≠ [] → disk.get? p = some .dir

variable {disk : Disk N B}

/-! ## Entries -/

theorem mem_entries {p : List N} {e : Entry B} : (p, e) ∈ disk.entries ↔ disk.get? p = some e := by
  obtain ⟨l, hl⟩ := disk
  change (p, e) ∈ l ↔ InsMap.find p l = some e
  induction l with
  | nil => simp [InsMap.find]
  | cons q l ih =>
    rw [List.map_cons, List.nodup_cons] at hl
    rw [InsMap.find, List.mem_cons, ih hl.2]
    split
    next hq =>
      constructor
      · rintro (rfl | hfind)
        · rfl
        · have hmem : p ∈ l.map Prod.fst := List.mem_map.2 ⟨(p, e), (ih hl.2).2 hfind, rfl⟩
          exact absurd (hq ▸ hmem) hl.1
      · intro he
        exact .inl (Prod.ext hq.symm (Option.some.inj he).symm)
    next hq =>
      refine ⟨fun h => h.resolve_left fun heq => hq (congrArg Prod.fst heq).symm, .inr⟩

theorem nameIn_eq_some {dir p : List N} {x : N} : nameIn dir p = some x ↔ p = dir ++ [x] := by
  rw [nameIn]
  constructor
  · intro h
    split at h
    next hdir =>
      obtain ⟨l, rfl⟩ := List.getLast?_eq_some_iff.1 h
      rw [List.dropLast_concat] at hdir
      rw [hdir]
    next => cases h
  · rintro rfl
    rw [List.dropLast_concat, if_pos rfl, List.getLast?_concat]

theorem mem_readdir {dir : List N} {x : N} {e : Entry B} :
    (x, e) ∈ readdir disk dir ↔ disk.get? (dir ++ [x]) = some e := by
  rw [readdir, List.mem_filterMap, ← mem_entries]
  constructor
  · rintro ⟨⟨p, e'⟩, hp, hname⟩
    obtain ⟨y, hy, heq⟩ := Option.map_eq_some_iff.1 hname
    obtain ⟨rfl, rfl⟩ := Prod.mk.inj heq
    rwa [← nameIn_eq_some.1 hy]
  · intro h
    refine ⟨_, h, ?_⟩
    rw [nameIn_eq_some.2 rfl]
    rfl

/-- The names in a directory are different. -/
theorem nodup_readdir (disk : Disk N B) (dir : List N) :
    ((readdir disk dir).map Prod.fst).Nodup := by
  have hmap : (readdir disk dir).map Prod.fst = disk.keys.filterMap (nameIn dir) := by
    rw [readdir, List.map_filterMap, InsMap.keys, List.filterMap_map]
    refine List.filterMap_congr fun p _ => ?_
    rw [Option.map_map, Function.comp_apply]
    exact Option.map_id'
  rw [hmap]
  refine disk.nodup.filterMap fun p q x hp hq => ?_
  rw [nameIn_eq_some.1 hp, nameIn_eq_some.1 hq]

/-- In a closed disk, what lies above anything is a directory. -/
theorem Closed.dir_of_append (h : Closed disk) {p rest : List N} {e : Entry B} (hp : p ≠ [])
    (hrest : rest ≠ []) (he : disk.get? (p ++ rest) = some e) : disk.get? p = some .dir := by
  induction rest using List.reverseRecOn generalizing e with
  | nil => exact absurd rfl hrest
  | append_singleton rest x ih =>
    rw [← List.append_assoc] at he
    have hdir := h _ _ _ he (List.append_ne_nil_of_left_ne_nil hp rest)
    by_cases hnil : rest = []
    · rwa [hnil, List.append_nil] at hdir
    · exact ih hnil hdir

/-! ## Making directories -/

/-- Making directories changes no file. -/
theorem get?_mkdirs_file (done rest : List N) (disk : Disk N B) (p : List N) (body : B) :
    (mkdirs done rest disk).1.get? p = some (.file body) ↔ disk.get? p = some (.file body) := by
  induction rest generalizing done disk with
  | nil => rfl
  | cons x rest ih =>
    rw [mkdirs]
    split
    next => rfl
    next => exact ih _ _
    next hnone =>
      rw [ih, InsMap.get?_set]
      split
      next hp =>
        rw [hp, hnone]
        constructor
        · intro h
          cases h
        · intro h
          cases h
      next => rfl

theorem Closed.set_dir (h : Closed disk) {done : List N} {x : N}
    (hnone : disk.get? (done ++ [x]) = none) (hdone : done = [] ∨ disk.get? done = some .dir) :
    Closed (disk.set (done ++ [x]) .dir) := by
  intro p y e he hp
  rw [InsMap.get?_set] at he ⊢
  split at he
  next hpy =>
    obtain ⟨rfl, -⟩ := List.append_inj' hpy rfl
    have hdir := hdone.resolve_left hp
    split
    next => rfl
    next => exact hdir
  next hpy =>
    have hdir := h p y e he hp
    split
    next => rfl
    next => exact hdir

theorem Closed.mkdirs (h : Closed disk) {done : List N} (rest : List N)
    (hdone : done = [] ∨ disk.get? done = some .dir) : Closed (mkdirs done rest disk).1 := by
  induction rest generalizing done disk with
  | nil => exact h
  | cons x rest ih =>
    rw [FileTree.mkdirs]
    split
    next => exact h
    next hdir => exact ih h (.inr hdir)
    next hnone => exact ih (h.set_dir hnone hdone) (.inr (InsMap.get?_set_self ..))

/-- Where all the directories are there, so is the last of them. -/
theorem get?_mkdirs_of_made {done rest : List N} (hmade : (mkdirs done rest disk).2 = true)
    (hdone : done = [] ∨ disk.get? done = some .dir) :
    done ++ rest = [] ∨ (mkdirs done rest disk).1.get? (done ++ rest) = some .dir := by
  induction rest generalizing done disk with
  | nil =>
    rw [List.append_nil]
    exact hdone
  | cons x rest ih =>
    have hassoc : done ++ x :: rest = done ++ [x] ++ rest := by
      rw [List.append_assoc, List.singleton_append]
    rw [hassoc]
    rw [mkdirs] at hmade ⊢
    split at hmade
    next => cases hmade
    next hdir => exact ih hmade (.inr hdir)
    next => exact ih hmade (.inr (InsMap.get?_set_self ..))

/-! ## Files -/

/-- A file is written where there is no directory, in a directory that is there. -/
theorem Closed.set_file (h : Closed disk) {dir : List N} {x : N} {body : B}
    (hdir : dir = [] ∨ disk.get? dir = some .dir) (hno : disk.get? (dir ++ [x]) ≠ some .dir) :
    Closed (disk.set (dir ++ [x]) (.file body)) := by
  intro p y e he hp
  rw [InsMap.get?_set] at he ⊢
  -- Nothing lies in what is written.
  have hbelow : p ≠ dir ++ [x] := by
    rintro rfl
    split at he
    next hpy =>
      have hlen := congrArg List.length hpy
      rw [List.length_append, List.length_singleton] at hlen
      omega
    next => exact hno (h _ y e he hp)
  rw [if_neg hbelow]
  split at he
  next hpy =>
    obtain ⟨rfl, -⟩ := List.append_inj' hpy rfl
    exact hdir.resolve_left hp
  next => exact h p y e he hp

/-- A file is deleted. -/
theorem Closed.delete (h : Closed disk) {p : List N} {body : B}
    (hfile : disk.get? p = some (.file body)) : Closed (disk.delete p) := by
  intro q x e he hq
  rw [InsMap.get?_delete] at he ⊢
  split at he
  next => cases he
  next =>
    have hdir := h q x e he hq
    split
    next hqp =>
      rw [hqp, hfile] at hdir
      cases hdir
    next => exact hdir

theorem writeFile_eq_some {path : List N} {body : B} {disk' : Disk N B} :
    writeFile path body disk = some disk' ↔
      disk.get? path ≠ some .dir ∧ disk' = disk.set path (.file body) := by
  rw [writeFile]
  split
  next hdir => simp [hdir]
  next hno =>
    refine ⟨fun h => ⟨hno, (Option.some.inj h).symm⟩, fun h => by rw [h.2]⟩

/-- After removing a file, the other files are there. -/
theorem get?_rm_file {path p : List N} {body : B} :
    (rm path disk).get? p = some (.file body) ↔
      p ≠ path ∧ disk.get? p = some (.file body) := by
  rw [rm]
  split
  next =>
    rw [InsMap.get?_delete]
    split
    next hp => simp [hp]
    next hp => simp [hp]
  next hno =>
    refine ⟨fun h => ⟨?_, h⟩, fun h => h.2⟩
    rintro rfl
    exact hno body h

theorem Closed.rm (h : Closed disk) (path : List N) : Closed (rm path disk) := by
  rw [FileTree.rm]
  split
  next hfile => exact h.delete hfile
  next => exact h

theorem rename_eq_some {src dst : List N} {disk' : Disk N B} :
    rename src dst disk = some disk' ↔ ∃ body, disk.get? src = some (.file body) ∧
      disk.get? dst ≠ some .dir ∧ disk' = (disk.delete src).set dst (.file body) := by
  rw [rename]
  split
  next hsrc hdst => simp [hdst]
  next body hsrc hdst =>
    rw [Option.some.injEq]
    constructor
    · rintro rfl
      exact ⟨body, hsrc, hdst, rfl⟩
    · rintro ⟨body', hsrc', -, rfl⟩
      obtain rfl := Entry.file.inj (Option.some.inj (hsrc.symm.trans hsrc'))
      rfl
  next hno _ =>
    constructor
    · intro h
      cases h
    · rintro ⟨body, hsrc, -, -⟩
      exact (hno body hsrc).elim

/-- A file is renamed into a directory that is there. -/
theorem Closed.rename (h : Closed disk) {src dst : List N} {disk' : Disk N B}
    (hrename : rename src dst disk = some disk') (hne : src ≠ dst) (hnil : dst ≠ [])
    (hdir : dst.dropLast = [] ∨ disk.get? dst.dropLast = some .dir) : Closed disk' := by
  obtain ⟨body, hsrc, hdst, rfl⟩ := rename_eq_some.1 hrename
  rw [← List.dropLast_append_getLast hnil] at hne hdst ⊢
  refine (h.delete hsrc).set_file (hdir.imp_right fun hdir => ?_) ?_
  · have hother : dst.dropLast ≠ src := by
      rintro rfl
      rw [hsrc] at hdir
      cases hdir
    rwa [InsMap.get?_delete_ne _ hother]
  · rwa [InsMap.get?_delete_ne _ hne.symm]

/-! ## Walking -/

/-- The walk finds the files. -/
theorem mem_walk {n : ℕ} {dir rest : List N} {body : B} :
    (rest, body) ∈ walk disk n dir → rest ≠ [] ∧ disk.get? (dir ++ rest) = some (.file body) := by
  induction n generalizing dir rest with
  | zero => exact fun hmem => absurd hmem List.not_mem_nil
  | succ n ih =>
    intro hmem
    rw [walk] at hmem
    obtain ⟨⟨x, e⟩, he, hmem⟩ := List.mem_flatMap.1 hmem
    rw [mem_readdir] at he
    cases e with
    | file body' =>
      obtain ⟨rfl, rfl⟩ := Prod.mk.inj (List.mem_singleton.1 hmem)
      exact ⟨List.cons_ne_nil _ _, he⟩
    | dir =>
      obtain ⟨⟨rest', body'⟩, hrest', heq⟩ := List.mem_map.1 hmem
      obtain ⟨rfl, rfl⟩ := Prod.mk.inj heq
      refine ⟨List.cons_ne_nil _ _, ?_⟩
      have hget := (ih hrest').2
      rwa [List.append_assoc, List.singleton_append] at hget

/-- The walk finds every file that is not too deep. -/
theorem mem_walk_of_get? (h : Closed disk) {n : ℕ} {dir rest : List N} {body : B}
    (hrest : rest ≠ []) (hn : rest.length ≤ n)
    (hget : disk.get? (dir ++ rest) = some (.file body)) : (rest, body) ∈ walk disk n dir := by
  induction n generalizing dir rest with
  | zero => exact absurd (List.eq_nil_of_length_eq_zero (Nat.le_zero.1 hn)) hrest
  | succ n ih =>
    cases rest with
    | nil => exact absurd rfl hrest
    | cons x rest =>
      rw [walk, List.mem_flatMap]
      by_cases hnil : rest = []
      · rw [hnil] at hget ⊢
        exact ⟨(x, .file body), mem_readdir.2 hget, List.mem_singleton.2 rfl⟩
      · rw [← List.singleton_append, ← List.append_assoc] at hget
        have hdir := h.dir_of_append (List.append_ne_nil_of_right_ne_nil _ (List.cons_ne_nil _ _))
          hnil hget
        refine ⟨(x, .dir), mem_readdir.2 hdir, List.mem_map.2 ⟨(rest, body), ?_, rfl⟩⟩
        exact ih hnil (Nat.le_of_succ_le_succ hn) hget

omit [DecidableEq N] in
theorem length_le_depth {p : List N} (hp : p ∈ disk.keys) : p.length ≤ depth disk := by
  rw [depth]
  revert hp
  generalize disk.keys = paths
  intro hp
  induction paths with
  | nil => cases hp
  | cons q l ih =>
    rw [List.foldr_cons]
    rcases List.mem_cons.1 hp with rfl | hp
    · exact Nat.le_max_left _ _
    · exact Nat.le_trans (ih hp) (Nat.le_max_right _ _)

/-- As deep as the disk, the walk finds all the files below a directory, and nothing else. -/
theorem mem_walk_depth (h : Closed disk) {dir rest : List N} {body : B} :
    (rest, body) ∈ walk disk (depth disk) dir ↔
      rest ≠ [] ∧ disk.get? (dir ++ rest) = some (.file body) := by
  refine ⟨mem_walk, fun ⟨hrest, hget⟩ => mem_walk_of_get? h hrest ?_ hget⟩
  have hkey : dir ++ rest ∈ disk.keys := InsMap.mem_keys.2 (by rw [hget]; rfl)
  have hle := length_le_depth hkey
  rw [List.length_append] at hle
  omega

/-- The walk finds each file once. -/
theorem nodup_walk (disk : Disk N B) (n : ℕ) (dir : List N) :
    ((walk disk n dir).map Prod.fst).Nodup := by
  induction n generalizing dir with
  | zero => exact List.nodup_nil
  | succ n ih =>
    rw [walk, List.map_flatMap, List.nodup_flatMap]
    refine ⟨fun e _ => ?_, ?_⟩
    · cases e.2 with
      | file body => exact List.nodup_singleton _
      | dir =>
        rw [List.map_map]
        have hcomp : (walk disk n (dir ++ [e.1])).map
            (Prod.fst ∘ fun f : List N × B => (e.1 :: f.1, f.2)) =
            ((walk disk n (dir ++ [e.1])).map Prod.fst).map (e.1 :: ·) := by
          rw [List.map_map]
          rfl
        rw [hcomp]
        exact (ih _).map fun _ _ heq => (List.cons.inj heq).2
    · -- What two entries lead to begins with their names, which are different.
      have hhead : ∀ (e : N × Entry B) (rest : List N), rest ∈ (match e.2 with
          | .file body => [([e.1], body)]
          | .dir => (walk disk n (dir ++ [e.1])).map
              fun f : List N × B => (e.1 :: f.1, f.2)).map Prod.fst →
            rest.head? = some e.1 := by
        intro e rest hmem
        cases he : e.2 with
        | file body =>
          rw [he] at hmem
          rw [List.mem_singleton.1 hmem]
          rfl
        | dir =>
          rw [he] at hmem
          obtain ⟨f, hf, rfl⟩ := List.mem_map.1 hmem
          obtain ⟨g, -, rfl⟩ := List.mem_map.1 hf
          rfl
      refine (List.pairwise_map.1 (nodup_readdir disk dir)).imp fun {a b} hab => ?_
      intro rest ha hb
      have heq := (hhead a rest ha).symm.trans (hhead b rest hb)
      exact hab (Option.some.inj heq)

end FileTree
