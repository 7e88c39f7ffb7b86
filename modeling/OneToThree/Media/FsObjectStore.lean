import OneToThree.Lib.FileTree
import OneToThree.Lib.Paging

/-!
# The object store on the local file system

Objects are files at `<root>/<bucket>/<key>`. Names and keys are lists of characters, paths
are lists of names, and a body is the list of its bytes.

* An upload lands on a temporary file beside the object and is renamed into place.
* A listing walks through the directories of the bucket, and skips the files whose names look
  like those of temporary files.

Modes, times of modification and copies are left out.
-/

namespace FsObjectStore

open FileTree

abbrev Text := List Char

abbrev Bytes := List UInt8

abbrev Disk := FileTree.Disk Text Bytes

inductive StoreError
  | invalidBucketName (bucket : Text)
  | invalidObjectKey
  | keyEscapesItsBucket
  | objectTooLarge
  | notFound (key : Text)
  /-- A failure of the file system, or a connection that breaks off. -/
  | io
  deriving DecidableEq

/-! ## Names and keys -/

def isLowerOrDigit (c : Char) : Bool := c.isLower || c.isDigit

/-- `/^[a-z0-9][a-z0-9.-]{1,62}$/` -/
def isValidBucketName : Text → Bool
  | [] => false
  | c :: rest => isLowerOrDigit c && 1 ≤ rest.length && rest.length ≤ 62 &&
      rest.all fun c => isLowerOrDigit c || c == '.' || c == '-'

/-- A letter or a digit, then also `.`, `_`, `/` and `-`, 512 characters at most. -/
def matchesKeyRe : Text → Bool
  | [] => false
  | c :: rest => c.isAlphanum && rest.length ≤ 511 &&
      rest.all fun c => c.isAlphanum || c == '.' || c == '_' || c == '/' || c == '-'

def isValidObjectKey (key : Text) : Bool :=
  matchesKeyRe key && !(key.splitOn '/').any fun seg => seg == ['.', '.'] || seg == ['.'] || seg == []

/-- `path.resolve`: one name after the other, from the base, or from the root. -/
def resolve (base : List Text) (p : Text) : List Text :=
  (p.splitOn '/').foldl (fun dir seg =>
    if seg = [] ∨ seg = ['.'] then dir
    else if seg = ['.', '.'] then dir.dropLast
    else dir ++ [seg]) (if p.head? = some '/' then [] else base)

def objectPath (root : List Text) (bucket key : Text) : Except StoreError (List Text) :=
  if !isValidBucketName bucket then .error (.invalidBucketName bucket)
  else if !isValidObjectKey key then .error .invalidObjectKey
  else
    let bucketDir := resolve root bucket
    let full := resolve bucketDir key
    if full ≠ bucketDir ∧ ¬bucketDir.isPrefixOf full then .error .keyEscapesItsBucket
    else .ok full

/-! ## Temporary files -/

def isHexOrDash (c : Char) : Bool :=
  c.isDigit || (c.isLower && c.toNat ≤ 'f'.toNat) || c == '-'

/-- What `randomUUID` draws. -/
structure Uuid where
  text : Text
  length_eq : text.length = 36
  hex : text.all isHexOrDash = true

def tmpMark : Text := ['.', 't', 'm', 'p', '-']

/-- `/\.tmp-[0-9a-f-]{36}$/` -/
def isTempName (name : Text) : Bool :=
  let tail := name.drop (name.length - 41)
  tail.length == 41 && tmpMark.isPrefixOf tail && (tail.drop 5).all isHexOrDash

/-- The temporary file of an upload, in the directory of the object. -/
def tmpName (name : Text) (uuid : Uuid) : Text := name ++ tmpMark ++ uuid.text

/-! ## Operations -/

/-- The path of the temporary file of an upload. -/
def tmpPath (full : List Text) (uuid : Uuid) : List Text :=
  full.dropLast ++ [tmpName (full.getLast?.getD []) uuid]

/-- A body, and whether writing it breaks off. -/
inductive Body
  | buffer (bytes : Bytes) (breaks : Bool)
  | stream (chunks : List Bytes) (breaks : Bool)

def Body.bytes : Body → Bytes
  | .buffer bytes _ => bytes
  | .stream chunks _ => chunks.flatten

def tooLarge (maxBytes : Option ℕ) (size : ℕ) : Bool :=
  match maxBytes with
  | none => false
  | some limit => limit < size

/-- The chunks that pass, counted as they go by, and whether all of them do. -/
def meter (maxBytes : Option ℕ) : ℕ → List Bytes → List Bytes × Bool
  | _, [] => ([], true)
  | written, chunk :: chunks =>
    if tooLarge maxBytes (written + chunk.length) then ([], false)
    else
      let rest := meter maxBytes (written + chunk.length) chunks
      (chunk :: rest.1, rest.2)

/-- Writing the temporary file. -/
def upload (tmp : List Text) (maxBytes : Option ℕ) (body : Body) (disk : Disk) :
    Except StoreError ℕ × Disk :=
  match body with
  | .buffer bytes breaks =>
    if tooLarge maxBytes bytes.length then (.error .objectTooLarge, disk)
    else match writeFile tmp bytes disk with
      | none => (.error .io, disk)
      | some disk' => (if breaks then .error .io else .ok bytes.length, disk')
  | .stream chunks breaks =>
    let passed := meter maxBytes 0 chunks
    match writeFile tmp passed.1.flatten disk with
    | none => (.error .io, disk)
    | some disk' =>
      (if !passed.2 then .error .objectTooLarge
        else if breaks then .error .io
        else .ok passed.1.flatten.length, disk')

structure PutParams where
  bucket : Text
  key : Text
  body : Body
  maxBytes : Option ℕ
  /-- What `randomUUID` draws for the name of the temporary file. -/
  uuid : Uuid

def putObject (root : List Text) (p : PutParams) (disk : Disk) : Except StoreError ℕ × Disk :=
  match objectPath root p.bucket p.key with
  | .error e => (.error e, disk)
  | .ok full =>
    let made := mkdirs [] full.dropLast disk
    if made.2 then
      let tmp := tmpPath full p.uuid
      match upload tmp p.maxBytes p.body made.1 with
      | (.error e, disk') => (.error e, rm tmp disk')
      | (.ok written, disk') =>
        match rename tmp full disk' with
        | none => (.error .io, rm tmp disk')
        | some disk'' => (.ok written, disk'')
    else (.error .io, made.1)

def getObjectBuffer (root : List Text) (bucket key : Text) (disk : Disk) :
    Except StoreError Bytes :=
  match objectPath root bucket key with
  | .error _ => .error (.notFound key)
  | .ok full =>
    match disk.get? full with
    | some (.file bytes) => .ok bytes
    | _ => .error (.notFound key)

/-- Deleting is best effort: a key that is no file is passed over. -/
def deleteObject (root : List Text) (bucket key : Text) (disk : Disk) : Disk :=
  match objectPath root bucket key with
  | .error _ => disk
  | .ok full => rm full disk

structure StoredObject where
  key : Text
  size : ℕ
  deriving DecidableEq

/-- The order of strings. -/
def keyLt : Text → Text → Bool
  | _, [] => false
  | [], _ :: _ => true
  | a :: s, b :: t => a.toNat < b.toNat || (a == b && keyLt s t)

/-- A key lies behind `startAfter`; nothing, like the empty text, is before all keys. -/
def behind (startAfter : Option Text) (o : StoredObject) : Bool :=
  match startAfter with
  | none => true
  | some s => s.isEmpty || keyLt s o.key

structure ListParams where
  bucket : Text
  keyPrefix : Option Text
  maxKeys : Option ℕ
  startAfter : Option Text

/-- A file below the directory of a bucket, as an object. -/
def toObject (f : List Text × Bytes) : StoredObject := ⟨['/'].intercalate f.1, f.2.length⟩

/-- What the walk through a bucket finds. -/
def found (root : List Text) (p : ListParams) (disk : Disk) : List StoredObject :=
  (((walk disk (depth disk) (resolve root p.bucket)).filter fun f =>
    !isTempName (f.1.getLast?.getD [])).map toObject).filter fun o =>
      (p.keyPrefix.getD []).isPrefixOf o.key && behind p.startAfter o

def pageSize (maxKeys : Option ℕ) : ℕ := max 1 (min (maxKeys.getD 1000) 5000)

def listObjects (root : List Text) (p : ListParams) (disk : Disk) :
    Except StoreError (List StoredObject × Bool) :=
  if !isValidBucketName p.bucket then .error (.invalidBucketName p.bucket)
  else
    let found := (found root p disk).insertionSort fun a b => keyLt b.key a.key = false
    let page := found.take (pageSize p.maxKeys)
    .ok (page, page.length < found.length)

/-! ## Paths -/

variable {root : List Text} {bucket key : Text} {full : List Text}

theorem resolve_of_names {base : List Text} {p : Text} (hp : p.head? ≠ some '/')
    (h : ∀ seg ∈ p.splitOn '/', seg ≠ [] ∧ seg ≠ ['.'] ∧ seg ≠ ['.', '.']) :
    resolve base p = base ++ p.splitOn '/' := by
  rw [resolve, if_neg hp]
  generalize p.splitOn '/' = segs at h
  induction segs generalizing base with
  | nil => rw [List.foldl_nil, List.append_nil]
  | cons seg segs ih =>
    obtain ⟨hnil, hdot, hdots⟩ := h seg List.mem_cons_self
    rw [List.foldl_cons, if_neg (by simp [hnil, hdot]), if_neg hdots,
      ih fun s hs => h s (List.mem_cons_of_mem _ hs), List.append_assoc, List.singleton_append]

theorem resolve_bucket (h : isValidBucketName bucket = true) :
    resolve root bucket = root ++ [bucket] := by
  cases bucket with
  | nil => cases h
  | cons c rest =>
    simp only [isValidBucketName, Bool.and_eq_true, decide_eq_true_eq, List.all_eq_true] at h
    obtain ⟨⟨⟨hc, hone⟩, -⟩, hrest⟩ := h
    have hslash : '/' ∉ c :: rest := by
      intro hmem
      rcases List.mem_cons.1 hmem with rfl | hmem
      · exact absurd hc (by decide)
      · exact absurd (hrest _ hmem) (by decide)
    have hsplit := List.splitOn_eq_singleton hslash
    have hdot : c ≠ '.' := by
      rintro rfl
      exact absurd hc (by decide)
    have hhead : (c :: rest).head? ≠ some '/' := by
      intro hhead
      exact hslash (List.mem_of_mem_head? hhead)
    rw [resolve_of_names hhead, hsplit]
    intro seg hseg
    rw [hsplit, List.mem_singleton] at hseg
    subst hseg
    simp [hdot]

theorem head_ne_slash_of_valid (h : isValidObjectKey key = true) : key.head? ≠ some '/' := by
  cases key with
  | nil => exact Option.some_ne_none _ ∘ Eq.symm
  | cons c rest =>
    simp only [isValidObjectKey, matchesKeyRe, Bool.and_eq_true] at h
    obtain ⟨⟨⟨hc, -⟩, -⟩, -⟩ := h
    intro hhead
    rw [List.head?_cons, Option.some.injEq] at hhead
    rw [hhead] at hc
    exact absurd hc (by decide)

theorem ne_nil_of_valid (h : isValidObjectKey key = true) : key ≠ [] := by
  rintro rfl
  cases h

theorem resolve_key {base : List Text} (h : isValidObjectKey key = true) :
    resolve base key = base ++ key.splitOn '/' := by
  refine resolve_of_names (head_ne_slash_of_valid h) fun seg hseg => ?_
  rw [isValidObjectKey, Bool.and_eq_true, Bool.not_eq_true', List.any_eq_false] at h
  have hno := h.2 seg hseg
  simp only [Bool.or_eq_true, beq_iff_eq, not_or] at hno
  exact ⟨hno.2, hno.1.2, hno.1.1⟩

/-- An object lies in the directory of its bucket, below it by the names of its key. -/
theorem objectPath_eq_ok : objectPath root bucket key = .ok full ↔
    isValidBucketName bucket = true ∧ isValidObjectKey key = true ∧
      full = root ++ [bucket] ++ key.splitOn '/' := by
  rw [objectPath]
  split
  next hbucket =>
    rw [Bool.not_eq_true'] at hbucket
    simp [hbucket]
  next hbucket =>
    rw [Bool.not_eq_true, Bool.not_eq_false'] at hbucket
    split
    next hkey =>
      rw [Bool.not_eq_true'] at hkey
      simp [hkey]
    next hkey =>
      rw [Bool.not_eq_true, Bool.not_eq_false'] at hkey
      simp only [resolve_bucket hbucket, resolve_key hkey]
      -- The check that the path stays in the bucket is never what refuses it.
      have hprefix : (root ++ [bucket]).isPrefixOf (root ++ [bucket] ++ key.splitOn '/') = true :=
        List.isPrefixOf_iff_prefix.2 (List.prefix_append _ _)
      rw [if_neg fun h => h.2 hprefix, Except.ok.injEq]
      exact ⟨fun h => ⟨hbucket, hkey, h.symm⟩, fun h => h.2.2.symm⟩

theorem objectPath_injective {bucket' key' : Text} (h : objectPath root bucket key = .ok full)
    (h' : objectPath root bucket' key' = .ok full) : bucket = bucket' ∧ key = key' := by
  obtain ⟨-, -, rfl⟩ := objectPath_eq_ok.1 h
  obtain ⟨-, -, heq⟩ := objectPath_eq_ok.1 h'
  rw [List.append_assoc, List.append_assoc, List.singleton_append, List.singleton_append] at heq
  obtain ⟨rfl, hsplit⟩ := List.cons.inj (List.append_cancel_left heq)
  refine ⟨rfl, ?_⟩
  calc key = ['/'].intercalate (key.splitOn '/') := (List.intercalate_splitOn '/').symm
    _ = ['/'].intercalate (key'.splitOn '/') := by rw [hsplit]
    _ = key' := List.intercalate_splitOn '/'

/-- The last name of a key. -/
def baseName (key : Text) : Text := (key.splitOn '/').getLast?.getD []

theorem getLast?_objectPath (h : objectPath root bucket key = .ok full) :
    full.getLast? = some (baseName key) := by
  obtain ⟨-, -, rfl⟩ := objectPath_eq_ok.1 h
  have hne := List.splitOn_ne_nil '/' key
  rw [List.getLast?_append_of_ne_nil _ hne, baseName, List.getLast?_eq_some_getLast hne]
  rfl

theorem objectPath_eq_dropLast_append (h : objectPath root bucket key = .ok full) :
    full = full.dropLast ++ [baseName key] := by
  obtain ⟨l, hl⟩ := List.getLast?_eq_some_iff.1 (getLast?_objectPath h)
  rw [hl, List.dropLast_concat]

theorem isTempName_tmpName (name : Text) (uuid : Uuid) : isTempName (tmpName name uuid) = true := by
  have hlength : (tmpName name uuid).length - 41 = name.length := by
    rw [tmpName, List.length_append, List.length_append, uuid.length_eq]
    rfl
  have hdrop : (tmpName name uuid).drop name.length = tmpMark ++ uuid.text := by
    rw [tmpName, List.append_assoc, List.drop_left]
  rw [isTempName, hlength, hdrop]
  have hfive : (tmpMark ++ uuid.text).drop 5 = uuid.text :=
    List.drop_left' rfl
  rw [hfive, uuid.hex, List.isPrefixOf_iff_prefix.2 (List.prefix_append _ _), List.length_append,
    uuid.length_eq]
  rfl

theorem getLast?_tmpPath (full : List Text) (uuid : Uuid) :
    (tmpPath full uuid).getLast? = some (tmpName (full.getLast?.getD []) uuid) := by
  rw [tmpPath, List.getLast?_concat]

theorem tmpPath_ne (full : List Text) (uuid : Uuid) : tmpPath full uuid ≠ full := by
  intro h
  have hlast := getLast?_tmpPath full uuid
  rw [h] at hlast
  -- The name of the temporary file is longer.
  have hlength := congrArg (fun last => (last.getD []).length) hlast
  simp only [Option.getD_some, tmpName, List.length_append, uuid.length_eq] at hlength
  omega

/-! ## What the operations do -/

variable {disk disk' : Disk}

theorem meter_all {maxBytes : Option ℕ} {written : ℕ} {chunks : List Bytes}
    (h : (meter maxBytes written chunks).2 = true) : (meter maxBytes written chunks).1 = chunks := by
  induction chunks generalizing written with
  | nil => rfl
  | cons chunk chunks ih =>
    rw [meter] at h ⊢
    split at h
    next => cases h
    next hfits =>
      rw [if_neg hfits]
      exact congrArg (chunk :: ·) (ih h)

/-- An upload changes the temporary file at most. -/
theorem upload_disk (tmp : List Text) (maxBytes : Option ℕ) (body : Body) (disk : Disk) :
    (upload tmp maxBytes body disk).2 = disk ∨
      ∃ bytes, writeFile tmp bytes disk = some (upload tmp maxBytes body disk).2 := by
  cases body with
  | buffer bytes breaks =>
    rw [upload]
    split
    next => exact .inl rfl
    next =>
      split
      next => exact .inl rfl
      next hwrite => exact .inr ⟨_, hwrite⟩
  | stream chunks breaks =>
    dsimp only [upload]
    split
    next => exact .inl rfl
    next hwrite => exact .inr ⟨_, hwrite⟩

/-- An upload that succeeds has written the whole body. -/
theorem upload_ok {tmp : List Text} {maxBytes : Option ℕ} {body : Body} {written : ℕ}
    (h : upload tmp maxBytes body disk = (.ok written, disk')) :
    writeFile tmp body.bytes disk = some disk' ∧ written = body.bytes.length := by
  cases body with
  | buffer bytes breaks =>
    rw [upload] at h
    split at h
    next => cases h
    next =>
      split at h
      next => cases h
      next hwrite =>
        obtain ⟨hok, rfl⟩ := Prod.mk.inj h
        split at hok
        next => cases hok
        next => exact ⟨hwrite, (Except.ok.inj hok).symm⟩
  | stream chunks breaks =>
    dsimp only [upload] at h
    split at h
    next => cases h
    next hwrite =>
      obtain ⟨hok, rfl⟩ := Prod.mk.inj h
      split at hok
      next => cases hok
      next hall =>
        rw [Bool.not_eq_true, Bool.not_eq_false'] at hall
        rw [meter_all hall] at hwrite hok
        split at hok
        next => cases hok
        next => exact ⟨hwrite, (Except.ok.inj hok).symm⟩

/-- Where the temporary file is no file of the disk, removing it after an upload leaves the files
    of the disk. -/
theorem rm_upload {tmp : List Text} (maxBytes : Option ℕ) (body : Body)
    (htmp : ∀ bytes, disk.get? tmp ≠ some (.file bytes)) (path : List Text) (bytes : Bytes) :
    (rm tmp (upload tmp maxBytes body disk).2).get? path = some (.file bytes) ↔
      disk.get? path = some (.file bytes) := by
  rw [get?_rm_file]
  rcases upload_disk tmp maxBytes body disk with hsame | ⟨written, hwrite⟩
  · rw [hsame]
    refine ⟨And.right, fun h => ⟨?_, h⟩⟩
    rintro rfl
    exact htmp bytes h
  · rw [(writeFile_eq_some.1 hwrite).2, InsMap.get?_set]
    constructor
    · rintro ⟨hne, h⟩
      rwa [if_neg hne] at h
    · intro h
      have hne : path ≠ tmp := by
        rintro rfl
        exact htmp bytes h
      exact ⟨hne, by rwa [if_neg hne]⟩

theorem closed_upload (h : Closed disk) {dir : List Text} {x : Text}
    (hdir : dir = [] ∨ disk.get? dir = some .dir) (maxBytes : Option ℕ) (body : Body) :
    Closed (upload (dir ++ [x]) maxBytes body disk).2 := by
  rcases upload_disk (dir ++ [x]) maxBytes body disk with hsame | ⟨bytes, hwrite⟩
  · rwa [hsame]
  · obtain ⟨hno, hset⟩ := writeFile_eq_some.1 hwrite
    rw [hset]
    exact h.set_file hdir hno

variable {p : PutParams}

/-- The directory of an object, as an upload makes it. -/
theorem dir_of_made {dir : List Text} (hmade : (mkdirs [] dir disk).2 = true) :
    dir = [] ∨ (mkdirs [] dir disk).1.get? dir = some .dir :=
  get?_mkdirs_of_made hmade (.inl rfl)

/-- A put that fails changes no file, where no file is in the way of its temporary file. -/
theorem putObject_error {e : StoreError} (hclosed : Closed disk)
    (h : putObject root p disk = (.error e, disk'))
    (htmp : ∀ full, objectPath root p.bucket p.key = .ok full →
      ∀ bytes, disk.get? (tmpPath full p.uuid) ≠ some (.file bytes)) :
    Closed disk' ∧ ∀ path bytes,
      disk'.get? path = some (.file bytes) ↔ disk.get? path = some (.file bytes) := by
  rw [putObject] at h
  split at h
  next =>
    obtain ⟨-, rfl⟩ := Prod.mk.inj h
    exact ⟨hclosed, fun _ _ => Iff.rfl⟩
  next full hfull =>
    have hmk : Closed (mkdirs [] full.dropLast disk).1 := hclosed.mkdirs _ (.inl rfl)
    dsimp only at h
    split at h
    next hmade =>
      have hno : ∀ bytes, (mkdirs [] full.dropLast disk).1.get? (tmpPath full p.uuid) ≠
          some (.file bytes) := by
        intro bytes hget
        exact htmp full hfull bytes ((get?_mkdirs_file ..).1 hget)
      have hfiles := fun path bytes => (rm_upload p.maxBytes p.body hno path bytes).trans
        (get?_mkdirs_file [] full.dropLast disk path bytes)
      have hup : Closed (upload (tmpPath full p.uuid) p.maxBytes p.body _).2 :=
        closed_upload hmk (dir_of_made hmade) p.maxBytes p.body
      split at h
      next hupload =>
        obtain ⟨-, rfl⟩ := Prod.mk.inj h
        rw [hupload] at hfiles
        rw [hupload] at hup
        exact ⟨hup.rm _, hfiles⟩
      next hupload =>
        rw [hupload] at hfiles
        rw [hupload] at hup
        split at h
        next =>
          obtain ⟨-, rfl⟩ := Prod.mk.inj h
          exact ⟨hup.rm _, hfiles⟩
        next => cases h
    next =>
      obtain ⟨-, rfl⟩ := Prod.mk.inj h
      exact ⟨hmk, get?_mkdirs_file [] full.dropLast disk⟩

/-- A put that succeeds makes its body the file of its object, and changes no other file. -/
theorem putObject_ok {written : ℕ} (hclosed : Closed disk)
    (h : putObject root p disk = (.ok written, disk'))
    (htmp : ∀ full, objectPath root p.bucket p.key = .ok full →
      ∀ bytes, disk.get? (tmpPath full p.uuid) ≠ some (.file bytes)) :
    written = p.body.bytes.length ∧ ∃ full, objectPath root p.bucket p.key = .ok full ∧
      Closed disk' ∧ ∀ path bytes, disk'.get? path = some (.file bytes) ↔
        if path = full then bytes = p.body.bytes else disk.get? path = some (.file bytes) := by
  rw [putObject] at h
  split at h
  next => cases h
  next full hfull =>
    have hmk : Closed (mkdirs [] full.dropLast disk).1 := hclosed.mkdirs _ (.inl rfl)
    dsimp only at h
    split at h
    next hmade =>
      split at h
      next => cases h
      next hupload =>
        split at h
        next => cases h
        next hrename =>
          obtain ⟨hok, rfl⟩ := Prod.mk.inj h
          obtain ⟨hwrite, hsize⟩ := upload_ok hupload
          obtain ⟨hno, rfl⟩ := writeFile_eq_some.1 hwrite
          refine ⟨(Except.ok.inj hok).symm.trans hsize, full, hfull, ?_, fun path bytes => ?_⟩
          · -- The object is renamed into its directory, which is there beside the temporary file.
            have hdir := dir_of_made hmade
            have hset : Closed ((mkdirs [] full.dropLast disk).1.set (tmpPath full p.uuid)
                (.file p.body.bytes)) := hmk.set_file hdir hno
            have hne : full.dropLast ≠ tmpPath full p.uuid := by
              intro heq
              have hlength := congrArg List.length heq
              rw [tmpPath, List.length_append, List.length_singleton] at hlength
              omega
            have hnil : full ≠ [] := by
              rw [objectPath_eq_dropLast_append hfull]
              exact List.concat_ne_nil _ _
            refine hset.rename hrename (tmpPath_ne full p.uuid) hnil (hdir.imp_right fun hdir => ?_)
            rwa [InsMap.get?_set_ne _ _ hne]
          · obtain ⟨body, hbody, hdst, rfl⟩ := rename_eq_some.1 hrename
            rw [InsMap.get?_set_self, Option.some.injEq, Entry.file.injEq] at hbody
            subst hbody
            rw [InsMap.get?_set, InsMap.get?_delete, InsMap.get?_set]
            split
            next =>
              rw [Option.some.injEq, Entry.file.injEq]
              exact eq_comm
            next =>
              by_cases htmpPath : path = tmpPath full p.uuid
              · rw [if_pos htmpPath, htmpPath]
                exact iff_of_false (Option.some_ne_none _ ·.symm) (htmp full hfull bytes)
              · rw [if_neg htmpPath, if_neg htmpPath, get?_mkdirs_file]
    next => cases h

end FsObjectStore
