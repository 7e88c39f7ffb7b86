import Mathlib.Data.List.Infix
import OneToThree.Folders.ChatFolders
import OneToThree.Lib.Machine
import OneToThree.Media.Eviction

/-!
# The limits on the sizes of uploads

An upload is accepted by its declared size and type, and its object is the ciphertext, which is
longer by the tag. Two later checks look at the object again, each with the limit of the
category of the type that was stored: the reconciliation of an uploader's rows, which allows
for the tag, and the end of a restoration, which does not.

* `uploadUrl` accepts an upload and says what is stored; source and markup files, and types that
  a browser would render, are stored as `application/octet-stream` (`storedContentType`).
* `storage` is the table of attachments with the objects, and whatever else happens to them.
* The checks let an upload be exactly where its ciphertext is within the limit of the type that
  it is stored with (`limits_agree_iff`).
-/

namespace OneToThree.Media

open Folders (isSpace trim)

/-! ## Categories -/

abbrev Env := String → Option String

inductive MediaCategory
  | image
  | video
  | audio
  | gif
  | file
  deriving DecidableEq

def MEDIA_SIZE_LIMITS : MediaCategory → ℕ
  | .image => 25 * 1024 * 1024
  | .video => 500 * 1024 * 1024
  | .audio => 50 * 1024 * 1024
  | .gif => 25 * 1024 * 1024
  | .file => 100 * 1024 * 1024

/-- `Number.parseInt`, to the base 10, where it is positive. -/
def parsePositive (raw : String) : Option ℕ :=
  let digits := (if raw.toList.head? = some '+' then raw.toList.tail else raw.toList).takeWhile
    Char.isDigit
  let n := digits.foldl (fun n c => 10 * n + (c.toNat - '0'.toNat)) 0
  if n = 0 then none else some n

def envInt (env : Env) (name : String) (fallback : ℕ) : ℕ :=
  ((env name).bind fun raw => parsePositive (trim raw)).getD fallback

def toLowerCase (s : String) : String := String.ofList (s.toList.map Char.toLower)

def startsWith (s start : String) : Bool := start.toList.isPrefixOf s.toList

def baseMimeType (mime : String) : String :=
  trim (String.ofList ((toLowerCase mime).toList.takeWhile (· ≠ ';')))

def categorizeMime (mime : String) : MediaCategory :=
  let lower := baseMimeType mime
  if lower = "image/gif" then .gif
  else if startsWith lower "image/" then .image
  else if startsWith lower "video/" then .video
  else if startsWith lower "audio/" then .audio
  else .file

section
variable (env : Env)

def categoryLimitBytes : MediaCategory → ℕ
  | .image => envInt env "MEDIA_LIMIT_IMAGE_BYTES" (MEDIA_SIZE_LIMITS .image)
  | .video => envInt env "MEDIA_LIMIT_VIDEO_BYTES" (MEDIA_SIZE_LIMITS .video)
  | .audio => envInt env "MEDIA_LIMIT_AUDIO_BYTES" (MEDIA_SIZE_LIMITS .audio)
  | .gif => envInt env "MEDIA_LIMIT_GIF_BYTES" (MEDIA_SIZE_LIMITS .gif)
  | .file => envInt env "MEDIA_LIMIT_FILE_BYTES" (MEDIA_SIZE_LIMITS .file)

def effectiveMaxUploadBytes : ℕ :=
  max (categoryLimitBytes env .image) <| max (categoryLimitBytes env .video) <|
    max (categoryLimitBytes env .audio) <| max (categoryLimitBytes env .gif) <|
      categoryLimitBytes env .file

theorem categoryLimitBytes_le (category : MediaCategory) :
    categoryLimitBytes env category ≤ effectiveMaxUploadBytes env := by
  rw [effectiveMaxUploadBytes]
  cases category <;> omega

end

/-! ## Types and names -/

def NEUTRALIZED_EXTENSIONS : List String :=
  [".html", ".htm", ".xhtml", ".xml", ".xsl", ".xslt", ".css", ".scss", ".sass", ".less",
    ".js", ".mjs", ".cjs", ".jsx", ".ts", ".tsx", ".mts", ".cts", ".vue", ".svelte",
    ".py", ".rb", ".php", ".pl", ".lua", ".r", ".go", ".rs", ".java", ".kt", ".kts",
    ".c", ".h", ".cc", ".cpp", ".cxx", ".hpp", ".hh", ".cs", ".m", ".mm", ".swift",
    ".dart", ".scala", ".clj", ".ex", ".exs", ".erl", ".hs", ".f90", ".asm", ".s",
    ".sh", ".bash", ".zsh", ".fish", ".ps1", ".psm1", ".mk", ".cmake", ".gradle",
    ".dockerfile", ".tf", ".tfvars",
    ".yml", ".yaml", ".toml", ".ini", ".cfg", ".conf", ".properties", ".sql",
    ".log", ".patch", ".diff", ".tsv", ".srt", ".vtt", ".tex", ".rst", ".adoc",
    ".lock", ".sum", ".map", ".po", ".pot", ".plist", ".gitignore", ".editorconfig"]

def ALLOWED_EXTENSIONS : List String :=
  [".jpg", ".jpeg", ".png", ".gif", ".webp", ".bmp", ".ico", ".avif",
    ".mp4", ".webm", ".mov", ".avi", ".mkv", ".m4v",
    ".mp3", ".ogg", ".wav", ".flac", ".aac", ".m4a", ".opus", ".weba",
    ".pdf", ".doc", ".docx", ".xls", ".xlsx", ".ppt", ".pptx",
    ".txt", ".csv", ".json", ".xml", ".md", ".rtf",
    ".zip", ".7z", ".tar", ".gz",
    ".blob", ".bin", ".weba", ".opus"] ++ NEUTRALIZED_EXTENSIONS

def ALLOWED_MIME_PREFIXES : List String :=
  ["image/", "video/", "audio/",
    "application/pdf", "application/msword",
    "application/vnd.openxmlformats", "application/vnd.ms-",
    "text/", "application/json", "application/xml",
    "application/zip", "application/x-7z-compressed",
    "application/gzip", "application/x-tar",
    "application/octet-stream"]

def RENDERABLE_MIME_DENYLIST : List String :=
  ["text/html", "text/x-html", "application/xhtml+xml", "text/xml", "application/xml", "text/xsl",
    "application/xslt+xml"]

def SVG_MIMES : List String := ["image/svg+xml", "image/svg"]

def OCTET_STREAM : String := "application/octet-stream"

/-- The last dot of a name with what follows it, if that is a short word. -/
def extensionFromFileName (fileName : String) : String :=
  let base := fileName.toList.reverse.takeWhile fun c => c ≠ '/' ∧ c ≠ '\\'
  let word := base.takeWhile Char.isAlphanum
  if 1 ≤ word.length ∧ word.length ≤ 12 ∧ (base.drop word.length).head? = some '.' then
    toLowerCase (String.ofList ('.' :: word.reverse))
  else ".bin"

/-- The length in units of UTF-16. -/
def utf16Length (cs : List Char) : ℕ := (cs.map fun c => if c.toNat < 0x10000 then 1 else 2).sum

/-- The first units of UTF-16. The half of a pair that is cut, no character, is shown as
    U+FFFD. -/
def sliceUtf16 : ℕ → List Char → List Char
  | 0, _ => []
  | _, [] => []
  | n + 1, c :: cs =>
    if c.toNat < 0x10000 then c :: sliceUtf16 n cs
    else if n = 0 then ['\uFFFD'] else c :: sliceUtf16 (n - 1) cs

def removeDots : List Char → List Char
  | '.' :: '.' :: cs => removeDots cs
  | c :: cs => c :: removeDots cs
  | [] => []

def sanitizeFileName (raw : String) : String :=
  String.ofList <| sliceUtf16 255 <|
    (removeDots (raw.toList.filter fun c => 0x20 ≤ c.toNat)).map fun c =>
      if c = '/' ∨ c = '\\' then '_' else c

def isAllowedExtension (ext : String) : Bool := toLowerCase ext ∈ ALLOWED_EXTENSIONS

def isAllowedMimeType (mime : String) : Bool :=
  let lower := baseMimeType mime
  if lower ∈ SVG_MIMES then false
  else if lower ∈ RENDERABLE_MIME_DENYLIST then true
  else ALLOWED_MIME_PREFIXES.any (startsWith lower)

/-- A type or an extension that is not stored as it was declared. -/
def isNeutralized (declaredMime ext : String) : Bool :=
  baseMimeType declaredMime ∈ RENDERABLE_MIME_DENYLIST ∨ toLowerCase ext ∈ NEUTRALIZED_EXTENSIONS

def storedContentType (declaredMime ext : String) : String :=
  if baseMimeType declaredMime ∈ RENDERABLE_MIME_DENYLIST then OCTET_STREAM
  else if toLowerCase ext ∈ NEUTRALIZED_EXTENSIONS then OCTET_STREAM
  else declaredMime

/-- What is neutralized is in the category of files. -/
theorem categorizeMime_storedContentType (declaredMime ext : String) :
    categorizeMime (storedContentType declaredMime ext) =
      if isNeutralized declaredMime ext then .file else categorizeMime declaredMime := by
  have hfile : categorizeMime OCTET_STREAM = .file := by decide +kernel
  rw [storedContentType, isNeutralized]
  by_cases hmime : baseMimeType declaredMime ∈ RENDERABLE_MIME_DENYLIST
  · rw [if_pos hmime, hfile, if_pos (by simp [hmime])]
  · by_cases hext : toLowerCase ext ∈ NEUTRALIZED_EXTENSIONS
    · rw [if_neg hmime, if_pos hext, hfile, if_pos (by simp [hext])]
    · rw [if_neg hmime, if_neg hext, if_neg (by simp [hmime, hext])]

/-! ## Object keys -/

def isHex (c : Char) : Bool :=
  c.isDigit || ('a' ≤ c && c ≤ 'f') || ('A' ≤ c && c ≤ 'F')

/-- Of the versions 1 to 5. -/
def isUuid (id : List Char) : Bool :=
  id.length = 36 ∧ id.zipIdx.all fun (c, i) =>
    if i ∈ [8, 13, 18, 23] then c = '-'
    else isHex c ∧ (i = 14 → '1' ≤ c ∧ c ≤ '5') ∧ (i = 19 → c ∈ "89abAB".toList)

/-- Chats, users and objects have ids of this form, which are drawn at random. -/
abbrev Uuid := {id : String // isUuid id.toList}

/-- `CHAT_OBJECT_KEY_RE.test`. -/
def isChatObjectKey (path : String) : Bool :=
  match path.toList.splitOn '/' with
  | [chats, chatId, userId, name] =>
    chats.map Char.toLower = "chats".toList ∧ isUuid chatId ∧ isUuid userId ∧ name ≠ []
  | _ => false

def objectKey (chatId userId uuid : Uuid) (ext : String) : String :=
  String.ofList (['/'].intercalate
    ["chats".toList, chatId.1.toList, userId.1.toList, uuid.1.toList ++ ext.toList])

/-- The paths that a restoration may name. -/
def isRestorable (filePath : String) : Bool :=
  ¬ ['.', '.'] <:+: filePath.toList ∧ '\\' ∉ filePath.toList ∧ isChatObjectKey filePath

/-! ## Uploading -/

inductive UploadError
  | invalidBody
  | svgXmlNotAllowed
  | fileTypeNotAllowed
  | mimeTypeNotAllowed
  | categoryLimitExceeded (category : MediaCategory) (limit_bytes size_bytes : ℕ)
  | userQuotaExceeded (quota_bytes used_bytes incoming_bytes : ℕ)
  | notAMember
  deriving DecidableEq

structure UploadBody where
  fileName : String
  fileType : String
  chatId : Uuid
  fileSize : ℕ

def UploadBody.ext (body : UploadBody) : String :=
  extensionFromFileName (sanitizeFileName body.fileName)

/-- What the handler finds and draws: the quota of the user, with zero for none, what they use,
    pending uploads included, and whether they are a member of the chat. -/
structure UploadContext where
  userId : Uuid
  userQuota : ℕ
  used : ℕ
  member : Bool
  uuid : Uuid

/-- An upload that was accepted: where its object goes, and the type that is signed. -/
structure Presigned where
  filePath : String
  bucket : String
  contentType : String
  deriving DecidableEq

section
variable (env : Env) (bucket : String)

def uploadBodyValid (body : UploadBody) : Bool :=
  (1 ≤ utf16Length body.fileName.toList ∧ utf16Length body.fileName.toList ≤ 512) ∧
    (1 ≤ utf16Length body.fileType.toList ∧ utf16Length body.fileType.toList ≤ 256) ∧
    1 ≤ body.fileSize ∧ body.fileSize ≤ effectiveMaxUploadBytes env

def uploadUrl (ctx : UploadContext) (body : UploadBody) : Except UploadError Presigned :=
  let isMediaMime := startsWith (toLowerCase body.fileType) "audio/" ∨
    startsWith (toLowerCase body.fileType) "video/"
  let category := categorizeMime body.fileType
  let categoryLimit := categoryLimitBytes env category
  if ¬ uploadBodyValid env body then .error .invalidBody
  else if baseMimeType body.fileType ∈ SVG_MIMES then .error .svgXmlNotAllowed
  else if ¬ isAllowedExtension body.ext ∧ ¬ isMediaMime then .error .fileTypeNotAllowed
  else if ¬ isAllowedMimeType body.fileType then .error .mimeTypeNotAllowed
  else if categoryLimit < body.fileSize then
    .error (.categoryLimitExceeded category categoryLimit body.fileSize)
  else if 0 < ctx.userQuota ∧ ctx.userQuota < ctx.used + body.fileSize then
    .error (.userQuotaExceeded ctx.userQuota ctx.used body.fileSize)
  else if ¬ ctx.member then .error .notAMember
  else .ok {
    filePath := objectKey body.chatId ctx.userId ctx.uuid body.ext
    bucket
    contentType := storedContentType body.fileType body.ext }

end

/-! ## The store -/

/-- A row of `attachments` with its type and its uploader. -/
structure UploadRow extends Attachment where
  uploaderId : Uuid
  contentType : String
  createdAt : ℕ

def PRESIGN_GRACE_MS : ℕ := 15 * 60 * 1000

def UPLOAD_SETTLE_MS : ℕ := 60 * 1000

def RECONCILE_BATCH : ℕ := 10

def GCM_TAG_BYTES : ℕ := 16

structure SizeReconcileResult where
  checked : ℕ
  corrected : ℕ
  removed : ℕ
  pendingBytes : ℕ
  deriving DecidableEq

/-- A reconciliation that runs: the rows that it has yet to look at, as it read them. -/
structure Reconciling where
  rows : List UploadRow
  result : SizeReconcileResult

/-- The table and the objects, in each bucket; and the keys of the uploads that were removed
    by a reconciliation, or refused by a restoration, for their size. -/
structure Store where
  rows : List UploadRow
  objects : String → String → Option ℕ
  reconciling : List Reconciling
  removed : List String
  rejected : List String

namespace Store

def update (s : Store) (id : ℕ) (f : UploadRow → UploadRow) : Store :=
  { s with rows := s.rows.map fun row => if row.id = id then f row else row }

def setObject (s : Store) (bucket key : String) (object : Option ℕ) : Store :=
  { s with objects := fun b k => if b = bucket ∧ k = key then object else s.objects b k }

/-- The deletion of an object, which may fail unnoticed. -/
def deleteObjectIfExists (s : Store) (bucket key : String) (deletes : Bool) : Store :=
  if deletes then s.setObject bucket key none else s

/-- The row of an upload, unless a row has its key. -/
def insert (s : Store) (row : UploadRow) : Store :=
  if s.rows.any fun r => r.objectKey = row.objectKey then s else { s with rows := s.rows ++ [row] }

end Store

/-- What a question for an object's size meets: an answer, which may lack the length, or none.
    The answer for an object that is not there is a 404. -/
inductive Head
  | unavailable
  | answered (hasLength : Bool)
  deriving DecidableEq

section
variable (env : Env) (fallbackBucket : String)

/-- The bucket of a row. -/
def UploadRow.bucketOr (row : UploadRow) : String :=
  if row.bucket = "" then fallbackBucket else row.bucket

/-- A reconciliation looks at a row. -/
def reconcileRow (now : ℕ) (head : Head) (deletes : Bool) (row : UploadRow) (s : Store)
    (result : SizeReconcileResult) : Store × SizeReconcileResult :=
  let bucket := row.bucketOr fallbackBucket
  let limitBytes := categoryLimitBytes env (categorizeMime row.contentType)
  match head with
  | .unavailable => (s, result)
  | .answered hasLength =>
    match s.objects bucket row.objectKey with
    | none =>
      let age := now - row.createdAt
      if UPLOAD_SETTLE_MS ≤ age ∧ age < PRESIGN_GRACE_MS then
        (s, { result with pendingBytes := result.pendingBytes + (limitBytes - row.sizeBytes) })
      else (s, result)
    | some actual =>
      let result := { result with checked := result.checked + 1 }
      if ¬ hasLength then (s, result)
      else if limitBytes + GCM_TAG_BYTES < actual then
        -- Media that a message names is kept.
        if row.messageId ≠ none then
          (s.update row.id (fun row => { row with sizeBytes := actual }),
            { result with corrected := result.corrected + 1 })
        else
          let s := s.deleteObjectIfExists bucket row.objectKey deletes
          let s := s.update row.id fun row =>
            { row with sizeBytes := actual, evictedAt := some now }
          ({ s with removed := s.removed ++ [row.objectKey] },
            { result with removed := result.removed + 1 })
      else if actual ≠ row.sizeBytes then
        (s.update row.id (fun row => { row with sizeBytes := actual }),
          { result with corrected := result.corrected + 1 })
      else (s, result)

/-- The rows that a reconciliation looks at. -/
def uploaderRows (rows : List UploadRow) (uploaderId : Uuid) : List UploadRow :=
  ((rows.filter fun row => row.uploaderId = uploaderId ∧ row.evictedAt = none).insertionSort
    fun a b => b.createdAt ≤ a.createdAt).take RECONCILE_BATCH

inductive RestoreAnswer
  | ok
  | invalidBody
  | invalidPath
  | mimeTypeNotAllowed
  | fileExpired
  | attachmentNotFound
  | contentTypeMismatch
  | categoryLimitExceeded (category : MediaCategory) (limit_bytes size_bytes : ℕ)
  deriving DecidableEq

structure RestoreBody where
  filePath : String
  fileType : String
  fileSize : ℕ

def restoreBodyValid (body : RestoreBody) : Bool :=
  (1 ≤ utf16Length body.filePath.toList ∧ utf16Length body.filePath.toList ≤ 2048) ∧
    (1 ≤ utf16Length body.fileType.toList ∧ utf16Length body.fileType.toList ≤ 256) ∧
    1 ≤ body.fileSize ∧ body.fileSize ≤ effectiveMaxUploadBytes env

/-- The size of an object, if the question for it is answered with one. -/
def headObjectSize (s : Store) (bucket key : String) (headOk : Bool) : Option ℕ :=
  if headOk then s.objects bucket key else none

/-- The end of a restoration; `claimed` is whether a message of a chat of the user names the
    path. -/
def restoreComplete (now : ℕ) (claimed headOk deletes : Bool) (body : RestoreBody) (s : Store) :
    Store × RestoreAnswer :=
  let filePath := trim body.filePath
  if ¬ restoreBodyValid env body then (s, .invalidBody)
  else if ¬ isRestorable filePath then (s, .invalidPath)
  else if ¬ isAllowedMimeType body.fileType then (s, .mimeTypeNotAllowed)
  else if ¬ claimed then (s, .fileExpired)
  else
    match s.rows.find? fun row => row.objectKey = filePath with
    | none => (s, .attachmentNotFound)
    | some att =>
      let stored := storedContentType body.fileType (extensionFromFileName filePath)
      if baseMimeType stored ≠ baseMimeType att.contentType then (s, .contentTypeMismatch)
      else
        let category := categorizeMime att.contentType
        let limitBytes := categoryLimitBytes env category
        let bucket := att.bucketOr fallbackBucket
        let sizeBytes := (headObjectSize s bucket filePath headOk).getD body.fileSize
        if limitBytes < sizeBytes then
          (s.deleteObjectIfExists bucket filePath deletes,
            .categoryLimitExceeded category limitBytes sizeBytes)
        else
          (s.update att.id (fun row =>
            { row with sizeBytes := sizeBytes, evictedAt := none, lastAccessedAt := now }), .ok)

/-- The body, or the object, was refused for its size. -/
def refusedForSize (body : RestoreBody) : RestoreAnswer → Bool
  | .invalidBody => effectiveMaxUploadBytes env < body.fileSize
  | .categoryLimitExceeded .. => true
  | _ => false

end

/-! ## What happens to uploads -/

/-- What may happen: other uploads, with the id of the row; objects that are put; messages that
    name a row, or do so no more; evictions and deletions of rows for other reasons than the
    size; and the two checks. -/
inductive Move
  | uploadUrl (ctx : UploadContext) (body : UploadBody) (id now : ℕ)
  | put (bucket key : String) (size : ℕ)
  | link (id : ℕ) (messageId : Option String)
  | evict (id now : ℕ) (deletes : Bool)
  | remove (id : ℕ) (deletes : Bool)
  | reconcile (uploaderId : Uuid)
  | check (i now : ℕ) (head : Head) (deletes : Bool)
  | restoreComplete (now : ℕ) (claimed headOk deletes : Bool) (body : RestoreBody)

def Presigned.row (up : Presigned) (ctx : UploadContext) (body : UploadBody) (id now : ℕ) :
    UploadRow where
  id
  bucket := up.bucket
  objectKey := up.filePath
  sizeBytes := body.fileSize
  messageId := none
  lastAccessedAt := now
  evictedAt := none
  uploaderId := ctx.userId
  contentType := up.contentType
  createdAt := now

namespace Store

section
variable (s : Store)

def link (id : ℕ) (messageId : Option String) : Store :=
  s.update id fun row => { row with messageId := messageId }

def deleteRowObject (fallbackBucket : String) (id : ℕ) (deletes : Bool) : Store :=
  (s.rows.find? fun row => row.id = id).elim s fun row =>
    s.deleteObjectIfExists (row.bucketOr fallbackBucket) row.objectKey deletes

def evict (fallbackBucket : String) (id now : ℕ) (deletes : Bool) : Store :=
  (s.deleteRowObject fallbackBucket id deletes).update id fun row =>
    { row with evictedAt := some now }

def remove (fallbackBucket : String) (id : ℕ) (deletes : Bool) : Store :=
  { s.deleteRowObject fallbackBucket id deletes with
    rows := s.rows.filter fun row => row.id ≠ id }

def reconcile (uploaderId : Uuid) : Store :=
  { s with reconciling := s.reconciling ++ [⟨uploaderRows s.rows uploaderId, ⟨0, 0, 0, 0⟩⟩] }

end

end Store

section
variable (env : Env) (bucket : String)

/-- The next row of a reconciliation, if it has one. -/
def check (s : Store) (i now : ℕ) (head : Head) (deletes : Bool) : Option Store :=
  match s.reconciling[i]? with
  | some ⟨row :: rows, result⟩ =>
    let (s, result) := reconcileRow env bucket now head deletes row s result
    some { s with reconciling := s.reconciling.set i ⟨rows, result⟩ }
  | _ => none

def noteRefusal (body : RestoreBody) (r : Store × RestoreAnswer) : Store :=
  if refusedForSize env body r.2 then { r.1 with rejected := r.1.rejected ++ [trim body.filePath] }
  else r.1

/-- The store from an upload on, with the key `key` and `size` bytes, whose object is only ever
    put as its ciphertext; a restoration of it declares no more than that. -/
def storage (key : String) (size : ℕ) (init : Store → Prop) : Machine Store Move where
  init
  step s
    | .uploadUrl ctx body id now =>
      match uploadUrl env bucket ctx body with
      | .ok up =>
        if up.filePath ≠ key then some (s.insert (up.row ctx body id now)) else none
      | .error _ => some s
    | .put b k n =>
      if k = key → n = size + GCM_TAG_BYTES then some (s.setObject b k (some n)) else none
    | .link id messageId => some (s.link id messageId)
    | .evict id now deletes => some (s.evict bucket id now deletes)
    | .remove id deletes => some (s.remove bucket id deletes)
    | .reconcile uploaderId => some (s.reconcile uploaderId)
    | .check i now head deletes => check env bucket s i now head deletes
    | .restoreComplete now claimed headOk deletes body =>
      if trim body.filePath = key → body.fileSize ≤ size + GCM_TAG_BYTES then
        some (noteRefusal env body (restoreComplete env bucket now claimed headOk deletes body s))
      else none

end

/-! ## Uploads that fit -/

/-- Nothing of the key. -/
structure Store.Lacks (s : Store) (key : String) : Prop where
  rows : ∀ row ∈ s.rows, row.objectKey ≠ key
  reconciling : ∀ r ∈ s.reconciling, ∀ row ∈ r.rows, row.objectKey ≠ key
  objects : ∀ b, s.objects b key = none
  removed : key ∉ s.removed
  rejected : key ∉ s.rejected

/-- The ciphertext is within the limit of the type. -/
def Fits (env : Env) (size : ℕ) (contentType : String) : Prop :=
  size + GCM_TAG_BYTES ≤ categoryLimitBytes env (categorizeMime contentType)

/-- The ciphertext is within the limit of the type of each row of the key, which is only ever put
    as that, and was never removed or refused for its size. -/
structure Store.Tracks (s : Store) (env : Env) (key : String) (size : ℕ) : Prop where
  rows : ∀ row ∈ s.rows, row.objectKey = key → Fits env size row.contentType
  reconciling : ∀ r ∈ s.reconciling, ∀ row ∈ r.rows, row.objectKey = key →
    Fits env size row.contentType
  objects : ∀ b n, s.objects b key = some n → n = size + GCM_TAG_BYTES
  removed : key ∉ s.removed
  rejected : key ∉ s.rejected

theorem Store.Lacks.tracks {s : Store} {key : String} (h : s.Lacks key) (env : Env) (size : ℕ) :
    s.Tracks env key size where
  rows row hrow hkey := absurd hkey (h.rows row hrow)
  reconciling r hr row hrow hkey := absurd hkey (h.reconciling r hr row hrow)
  objects b n hn := by
    rw [h.objects b] at hn
    exact absurd hn (Option.some_ne_none n).symm
  removed := h.removed
  rejected := h.rejected

namespace Store.Tracks

variable {s : Store} {env : Env} {key : String} {size : ℕ} (h : s.Tracks env key size)

include h in
theorem update (id : ℕ) {f : UploadRow → UploadRow}
    (hf : ∀ row, (f row).objectKey = row.objectKey ∧ (f row).contentType = row.contentType) :
    (s.update id f).Tracks env key size := by
  refine { h with rows := fun row hrow hkey => ?_ }
  obtain ⟨row', hrow', rfl⟩ := List.mem_map.1 hrow
  by_cases hid : row'.id = id
  · rw [if_pos hid] at hkey ⊢
    rw [(hf row').2]
    exact h.rows row' hrow' ((hf row').1.symm.trans hkey)
  · rw [if_neg hid] at hkey ⊢
    exact h.rows row' hrow' hkey

include h in
theorem setObject {b k : String} {object : Option ℕ}
    (hobject : ∀ n, k = key → object = some n → n = size + GCM_TAG_BYTES) :
    (s.setObject b k object).Tracks env key size := by
  refine { h with objects := fun b' n hn => ?_ }
  by_cases hbk : b' = b ∧ key = k
  · exact hobject n hbk.2.symm ((if_pos hbk).symm.trans hn)
  · exact h.objects b' n ((if_neg hbk).symm.trans hn)

include h in
theorem deleteObjectIfExists (b k : String) (deletes : Bool) :
    (s.deleteObjectIfExists b k deletes).Tracks env key size := by
  rw [Store.deleteObjectIfExists]
  split
  · exact h.setObject fun n _ hn => absurd hn (Option.some_ne_none n).symm
  · exact h

include h in
theorem deleteRowObject (bucket : String) (id : ℕ) (deletes : Bool) :
    (s.deleteRowObject bucket id deletes).Tracks env key size := by
  rw [Store.deleteRowObject]
  cases s.rows.find? fun row => row.id = id with
  | none => exact h
  | some row => exact h.deleteObjectIfExists ..

include h in
theorem insert {row : UploadRow} (hrow : row.objectKey = key → Fits env size row.contentType) :
    (s.insert row).Tracks env key size := by
  rw [Store.insert]
  split
  · exact h
  · refine { h with rows := fun row' hrow' => ?_ }
    rcases List.mem_append.1 hrow' with hold | hnew
    · exact h.rows row' hold
    · exact List.mem_singleton.1 hnew ▸ hrow

include h in
theorem remove (bucket : String) (id : ℕ) (deletes : Bool) :
    (s.remove bucket id deletes).Tracks env key size :=
  { h.deleteRowObject bucket id deletes with
    rows := fun row hrow => h.rows row (List.mem_of_mem_filter hrow) }

include h in
theorem reconcile (uploaderId : Uuid) :
    (s.reconcile uploaderId).Tracks env key size := by
  refine { h with reconciling := fun r hr => ?_ }
  rcases List.mem_append.1 hr with hold | hnew
  · exact h.reconciling r hold
  · obtain rfl := List.mem_singleton.1 hnew
    intro row hrow
    have hmem := (List.perm_insertionSort _ _).mem_iff.1 (List.mem_of_mem_take hrow)
    exact h.rows row (List.mem_of_mem_filter hmem)

include h in
/-- A reconciliation removes other uploads only. -/
theorem reconcileRow (bucket : String) {row : UploadRow}
    (hrow : row.objectKey = key → Fits env size row.contentType) (now : ℕ) (head : Head)
    (deletes : Bool) (result : SizeReconcileResult) :
    (reconcileRow env bucket now head deletes row s result).1.Tracks env key size := by
  cases head with
  | unavailable => exact h
  | answered hasLength =>
    rw [Media.reconcileRow]
    dsimp only
    cases hobject : s.objects (row.bucketOr bucket) row.objectKey with
    | none =>
      dsimp only
      split <;> exact h
    | some actual =>
      dsimp only
      split
      next => exact h
      next =>
        split
        next hover =>
          split
          next => exact h.update _ fun _ => ⟨rfl, rfl⟩
          next =>
            have hne : row.objectKey ≠ key := by
              intro hkey
              rw [hkey] at hobject
              rw [h.objects _ _ hobject] at hover
              have hlimit : size + GCM_TAG_BYTES ≤ _ := hrow hkey
              omega
            have hgone := h.deleteObjectIfExists (row.bucketOr bucket) row.objectKey deletes
            have hstamped := hgone.update row.id
              (f := fun row => { row with sizeBytes := actual, evictedAt := some now })
              fun _ => ⟨rfl, rfl⟩
            refine { hstamped with removed := fun hmem => ?_ }
            rcases List.mem_append.1 hmem with hold | hnew
            · exact hstamped.removed hold
            · exact hne (List.mem_singleton.1 hnew).symm
        next =>
          split
          next => exact h.update _ fun _ => ⟨rfl, rfl⟩
          next => exact h

include h in
theorem check {bucket : String} {s' : Store} {i now : ℕ} {head : Head}
    {deletes : Bool} (hcheck : check env bucket s i now head deletes = some s') :
    s'.Tracks env key size := by
  rw [Media.check] at hcheck
  split at hcheck
  next row rows result hi =>
    obtain rfl := Option.some.inj hcheck
    have hrows := h.reconciling _ (List.mem_of_getElem? hi)
    have hchecked := h.reconcileRow bucket (hrows row List.mem_cons_self) now head deletes result
    refine { hchecked with reconciling := fun r hr row' hrow' => ?_ }
    rcases List.mem_or_eq_of_mem_set hr with hold | rfl
    · exact hchecked.reconciling r hold row' hrow'
    · exact hrows row' (List.mem_cons_of_mem _ hrow')
  next => exact absurd hcheck (Option.some_ne_none _).symm

include h in
/-- The size that a restoration goes by is no more than that of the ciphertext. -/
theorem headObjectSize_getD_le (bucket : String) (headOk : Bool) {n : ℕ}
    (hn : n ≤ size + GCM_TAG_BYTES) :
    (headObjectSize s bucket key headOk).getD n ≤ size + GCM_TAG_BYTES := by
  rw [headObjectSize]
  split
  · cases hobject : s.objects bucket key with
    | none => exact hn
    | some actual => exact (h.objects _ _ hobject).le
  · exact hn

include h in
/-- A restoration refuses other uploads only. -/
theorem restoreComplete (hmax : size + GCM_TAG_BYTES ≤ effectiveMaxUploadBytes env)
    (bucket : String) {body : RestoreBody}
    (hbody : trim body.filePath = key → body.fileSize ≤ size + GCM_TAG_BYTES) (now : ℕ)
    (claimed headOk deletes : Bool) :
    (restoreComplete env bucket now claimed headOk deletes body s).1.Tracks env key size ∧
      (refusedForSize env body
        (restoreComplete env bucket now claimed headOk deletes body s).2 = true →
        trim body.filePath ≠ key) := by
  rw [Media.restoreComplete]
  dsimp only
  split
  next =>
    -- A body that is refused for its own number is not of this upload.
    refine ⟨h, fun hrefused hkey => ?_⟩
    have hover := of_decide_eq_true hrefused
    have := hbody hkey
    omega
  next =>
    split
    next => exact ⟨h, fun hrefused => absurd hrefused Bool.false_ne_true⟩
    next =>
    split
    next => exact ⟨h, fun hrefused => absurd hrefused Bool.false_ne_true⟩
    next =>
    split
    next => exact ⟨h, fun hrefused => absurd hrefused Bool.false_ne_true⟩
    next =>
    cases hfind : s.rows.find? fun row => row.objectKey = trim body.filePath with
    | none => exact ⟨h, fun hrefused => absurd hrefused Bool.false_ne_true⟩
    | some att =>
      dsimp only
      split
      next => exact ⟨h, fun hrefused => absurd hrefused Bool.false_ne_true⟩
      next =>
        split
        next hover =>
          refine ⟨h.deleteObjectIfExists .., fun _ hkey => ?_⟩
          have hpath : att.objectKey = trim body.filePath := by simpa using List.find?_some hfind
          rw [hkey] at hover
          have hlimit : size + GCM_TAG_BYTES ≤ _ :=
            h.rows att (List.mem_of_find?_eq_some hfind) (hpath.trans hkey)
          have hsize := h.headObjectSize_getD_le (att.bucketOr bucket) headOk (hbody hkey)
          omega
        next =>
          exact ⟨h.update _ fun _ => ⟨rfl, rfl⟩, fun hrefused => absurd hrefused Bool.false_ne_true⟩

end Store.Tracks

/-! ## What a key is like -/

/-- What holds of the letters and digits of ASCII holds of all of them. -/
theorem of_alphanum (P : Char → Prop)
    (h : ∀ i : Fin 128, (Char.ofNat i).isAlphanum → P (Char.ofNat i)) {c : Char}
    (hc : c.isAlphanum) : P c := by
  have hlt : c.toNat < 128 := by
    have hz : ('z').val.toNat = 122 := rfl
    have hZ : ('Z').val.toNat = 90 := rfl
    have h9 : ('9').val.toNat = 57 := rfl
    delta Char.isAlphanum Char.isAlpha Char.isUpper Char.isLower Char.isDigit at hc
    simp only [Bool.or_eq_true, Bool.and_eq_true, decide_eq_true_eq, UInt32.le_iff_toNat_le,
      ge_iff_le] at hc
    change c.val.toNat < 128
    omega
  have hi := h ⟨c.toNat, hlt⟩
  rw [show Char.ofNat (⟨c.toNat, hlt⟩ : Fin 128).val = c from Char.ofNat_toNat c] at hi
  exact hi hc

theorem toLower_alphanum {c : Char} (h : c.isAlphanum) :
    c.toLower.isAlphanum ∧ c.toLower.toLower = c.toLower :=
  of_alphanum (fun c => c.toLower.isAlphanum ∧ c.toLower.toLower = c.toLower)
    (by decide +kernel) h

theorem isSpace_alphanum {c : Char} (h : c.isAlphanum) : isSpace c = false :=
  of_alphanum (fun c => isSpace c = false) (by decide +kernel) h

/-- A short word in lower case, as it follows the dot of an extension. -/
structure IsWord (word : List Char) : Prop where
  ne_nil : word ≠ []
  length_le : word.length ≤ 12
  alphanum : ∀ c ∈ word, c.isAlphanum
  lower : ∀ c ∈ word, c.toLower = c

theorem exists_extensionFromFileName (fileName : String) :
    ∃ word, IsWord word ∧ extensionFromFileName fileName = String.ofList ('.' :: word) := by
  rw [extensionFromFileName]
  generalize fileName.toList.reverse.takeWhile (fun c => c ≠ '/' ∧ c ≠ '\\') = base
  split
  next h =>
    have halphanum : ∀ c ∈ base.takeWhile Char.isAlphanum, c.isAlphanum := fun c hc =>
      List.all_eq_true.1 List.all_takeWhile c hc
    refine ⟨(base.takeWhile Char.isAlphanum).reverse.map Char.toLower, ⟨?_, ?_, ?_, ?_⟩, ?_⟩
    · intro hnil
      have hlen := congrArg List.length hnil
      rw [List.length_map, List.length_reverse, List.length_nil] at hlen
      omega
    · rw [List.length_map, List.length_reverse]
      exact h.2.1
    · intro c hc
      obtain ⟨c', hc', rfl⟩ := List.mem_map.1 hc
      exact (toLower_alphanum (halphanum c' (List.mem_reverse.1 hc'))).1
    · intro c hc
      obtain ⟨c', hc', rfl⟩ := List.mem_map.1 hc
      exact (toLower_alphanum (halphanum c' (List.mem_reverse.1 hc'))).2
    · rw [toLowerCase, String.toList_ofList, List.map_cons]
      rfl
  next =>
    have halphanum : "bin".toList.all (fun c => c.isAlphanum) = true := by decide +kernel
    have hlower : "bin".toList.all (fun c => c.toLower == c) = true := by decide +kernel
    exact ⟨"bin".toList, ⟨by decide +kernel, by decide +kernel, List.all_eq_true.1 halphanum,
      fun c hc => beq_iff_eq.1 (List.all_eq_true.1 hlower c hc)⟩, by decide +kernel⟩

/-- The extension of a name that ends with a dot and a short word. -/
theorem extensionFromFileName_append {word : List Char} (h : IsWord word) (start : List Char) :
    extensionFromFileName (String.ofList (start ++ '.' :: word)) =
      String.ofList ('.' :: word) := by
  have halphanum : ∀ c ∈ word.reverse, c.isAlphanum := fun c hc =>
    h.alphanum c (List.mem_reverse.1 hc)
  have hnosep : ∀ c ∈ word.reverse ++ ['.'], (decide (c ≠ '/' ∧ c ≠ '\\')) = true := by
    intro c hc
    refine decide_eq_true ⟨?_, ?_⟩
    · rintro rfl
      rcases List.mem_append.1 hc with hc | hc
      · exact absurd (halphanum _ hc) (by decide)
      · exact absurd hc (by decide)
    · rintro rfl
      rcases List.mem_append.1 hc with hc | hc
      · exact absurd (halphanum _ hc) (by decide)
      · exact absurd hc (by decide)
  have hbase : (start ++ '.' :: word).reverse.takeWhile (fun c => c ≠ '/' ∧ c ≠ '\\') =
      word.reverse ++ '.' :: (start.reverse.takeWhile fun c => c ≠ '/' ∧ c ≠ '\\') := by
    rw [List.reverse_append, List.reverse_cons, List.takeWhile_append_of_pos hnosep,
      List.append_assoc, List.singleton_append]
  have hword : ∀ rest : List Char,
      (word.reverse ++ '.' :: rest).takeWhile Char.isAlphanum = word.reverse := fun rest => by
    rw [List.takeWhile_append_of_pos halphanum, List.takeWhile_cons_of_neg (by decide),
      List.append_nil]
  have hlen := h.length_le
  have hpos := List.length_pos_iff.2 h.ne_nil
  have hlen' : 1 ≤ word.reverse.length ∧ word.reverse.length ≤ 12 := by
    rw [List.length_reverse]
    omega
  rw [extensionFromFileName, String.toList_ofList, hbase, hword, List.drop_left' rfl,
    if_pos ⟨hlen'.1, hlen'.2, rfl⟩, List.reverse_reverse, toLowerCase,
    String.toList_ofList, List.map_cons, List.map_congr_left h.lower, List.map_id']
  rfl

theorem mem_uuid (id : Uuid) {c : Char} (hc : c ∈ id.1.toList) : c = '-' ∨ isHex c := by
  have hall := (of_decide_eq_true id.2).2
  rw [← List.zipIdx_map_fst 0 id.1.toList] at hc
  obtain ⟨⟨c, i⟩, hmem, rfl⟩ := List.mem_map.1 hc
  have hci := List.all_eq_true.1 hall _ hmem
  dsimp only at hci
  split at hci
  · exact .inl (of_decide_eq_true hci)
  · exact .inr (of_decide_eq_true hci).1

theorem length_uuid (id : Uuid) : id.1.toList.length = 36 := (of_decide_eq_true id.2).1

section
variable (chatId userId uuid : Uuid) {word : List Char}

/-- The fields of a key. -/
def keyFields (word : List Char) : List (List Char) :=
  ["chats".toList, chatId.1.toList, userId.1.toList, uuid.1.toList ++ '.' :: word]

theorem objectKey_eq (word : List Char) :
    objectKey chatId userId uuid (String.ofList ('.' :: word)) =
      String.ofList (['/'].intercalate (keyFields chatId userId uuid word)) := by
  have hext : (String.ofList ('.' :: word)).toList = '.' :: word := String.toList_ofList
  rw [objectKey, hext]
  rfl

/-- A key starts with the ids, and ends with its extension. -/
theorem intercalate_keyFields (word : List Char) : ∃ start : List Char,
    ['/'].intercalate (keyFields chatId userId uuid word) = 'c' :: start ++ '.' :: word ∧
      start.length = 115 ∧ ∀ c ∈ start, c ≠ '.' ∧ c ≠ '\\' := by
  refine ⟨"hats/".toList ++ (chatId.1.toList ++ ('/' :: userId.1.toList ++ ('/' :: uuid.1.toList))),
    ?_, ?_, ?_⟩
  · simp [keyFields, List.intercalate]
  · simp only [List.length_append, List.length_cons, length_uuid]
    rfl
  · have huuid : ∀ (id : Uuid), ∀ c ∈ id.1.toList, c ≠ '.' ∧ c ≠ '\\' := by
      intro id c hc
      constructor
      · rintro rfl
        exact absurd (mem_uuid id hc) (by decide)
      · rintro rfl
        exact absurd (mem_uuid id hc) (by decide)
    have hhats : "hats/".toList.all (fun c => c != '.' && c != '\\') = true := by decide +kernel
    simp only [List.mem_append, List.mem_cons]
    rintro c (hc | hc | (rfl | hc) | rfl | hc)
    · have hc := List.all_eq_true.1 hhats c hc
      rwa [Bool.and_eq_true, bne_iff_ne, bne_iff_ne] at hc
    · exact huuid chatId c hc
    · decide
    · exact huuid userId c hc
    · decide
    · exact huuid uuid c hc

theorem objectKey_ne_nil (ext : String) : (objectKey chatId userId uuid ext).toList ≠ [] := by
  rw [objectKey, String.toList_ofList]
  simp [List.intercalate]

/-- The key of an upload is a path that may be restored. -/
theorem isRestorable_objectKey (hword : IsWord word) :
    isRestorable (objectKey chatId userId uuid (String.ofList ('.' :: word))) := by
  obtain ⟨start, hkey, -, hstart⟩ := intercalate_keyFields chatId userId uuid word
  have hnot : ∀ c ∈ word, c ≠ '.' ∧ c ≠ '\\' ∧ c ≠ '/' := by
    intro c hc
    have halphanum := hword.alphanum c hc
    refine ⟨?_, ?_, ?_⟩
    all_goals
      rintro rfl
      exact absurd halphanum (by decide)
  rw [isRestorable, objectKey_eq, String.toList_ofList]
  refine decide_eq_true ⟨?_, ?_, ?_⟩
  · -- A key has one dot.
    intro hdots
    have hcount := hdots.sublist.count_le '.'
    have hstart' : ('c' :: start).count '.' = 0 := by
      rw [List.count_cons_of_ne (by decide), List.count_eq_zero]
      exact fun h => (hstart _ h).1 rfl
    have hend : ('.' :: word).count '.' = 1 := by
      rw [List.count_cons_self, List.count_eq_zero.2 fun h => (hnot _ h).1 rfl]
    rw [hkey, List.count_append, hstart', hend] at hcount
    exact absurd hcount (by decide)
  · rw [hkey, List.mem_append, List.mem_cons, List.mem_cons]
    rintro ((h | h) | h | h)
    · exact absurd h (by decide)
    · exact (hstart _ h).2 rfl
    · exact absurd h (by decide)
    · exact (hnot _ h).2.1 rfl
  · have hsep : ∀ (id : Uuid), '/' ∉ id.1.toList := fun id h => absurd (mem_uuid id h) (by decide)
    rw [isChatObjectKey, String.toList_ofList, List.splitOn_intercalate]
    · exact decide_eq_true ⟨by decide +kernel, chatId.2, userId.2, by simp⟩
    · simp only [keyFields, List.mem_cons, List.not_mem_nil, or_false]
      rintro l (rfl | rfl | rfl | rfl)
      · decide +kernel
      · exact hsep chatId
      · exact hsep userId
      · rw [List.mem_append, List.mem_cons]
        rintro (h | h | h)
        · exact hsep uuid h
        · exact absurd h (by decide)
        · exact (hnot _ h).2.2 rfl
    · exact List.cons_ne_nil _ _

theorem trim_objectKey (hword : IsWord word) :
    trim (objectKey chatId userId uuid (String.ofList ('.' :: word))) =
      objectKey chatId userId uuid (String.ofList ('.' :: word)) := by
  obtain ⟨start, hkey, -, -⟩ := intercalate_keyFields chatId userId uuid word
  obtain ⟨last, rest, hrev⟩ := List.exists_cons_of_ne_nil
    (mt List.reverse_eq_nil_iff.1 hword.ne_nil)
  have hlast := isSpace_alphanum
    (hword.alphanum last (List.mem_reverse.1 (hrev ▸ List.mem_cons_self)))
  have hrevkey : ('c' :: start ++ '.' :: word).reverse =
      last :: (rest ++ ('c' :: start ++ ['.']).reverse) := by
    rw [List.append_cons, List.reverse_append, hrev, List.cons_append]
  rw [objectKey_eq, trim, String.toList_ofList, hkey, List.cons_append,
    List.dropWhile_cons_of_neg (by decide), ← List.cons_append, hrevkey,
    List.dropWhile_cons_of_neg (by rw [hlast]; exact Bool.false_ne_true), ← hrevkey,
    List.reverse_reverse]

theorem utf16Length_le (cs : List Char) : utf16Length cs ≤ 2 * cs.length := by
  induction cs with
  | nil => exact Nat.le_refl _
  | cons c cs ih =>
    rw [utf16Length, List.map_cons, List.sum_cons, List.length_cons]
    rw [utf16Length] at ih
    split <;> omega

end

theorem le_utf16Length (cs : List Char) : cs.length ≤ utf16Length cs := by
  induction cs with
  | nil => exact Nat.le_refl _
  | cons c cs ih =>
    rw [utf16Length, List.map_cons, List.sum_cons, List.length_cons]
    rw [utf16Length] at ih
    split <;> omega

/-! ## Agreement -/

section
variable {env : Env} {bucket : String} {ctx : UploadContext} {body : UploadBody} {up : Presigned}

/-- The store when an upload is accepted; `recorded` is whether its row could be inserted. -/
def Started (up : Presigned) (ctx : UploadContext) (body : UploadBody) (id now : ℕ)
    (recorded : Bool) (s : Store) : Prop :=
  ∃ s₀ : Store, s₀.Lacks up.filePath ∧
    s = if recorded then s₀.insert (up.row ctx body id now) else s₀

theorem tracks_step {key : String} {size : ℕ} {init : Store → Prop} {s s' : Store} {e : Move}
    (hmax : size + GCM_TAG_BYTES ≤ effectiveMaxUploadBytes env) (h : s.Tracks env key size)
    (hstep : (storage env bucket key size init).step s e = some s') :
    s'.Tracks env key size := by
  cases e with
  | uploadUrl ctx body id now =>
    simp only [storage] at hstep
    split at hstep
    next up hup =>
      split at hstep
      next hkey =>
        obtain rfl := Option.some.inj hstep
        exact h.insert fun hrow => absurd hrow hkey
      next => exact absurd hstep (Option.some_ne_none _).symm
    next => exact Option.some.inj hstep ▸ h
  | put b k n =>
    simp only [storage] at hstep
    split at hstep
    next hn =>
      obtain rfl := Option.some.inj hstep
      exact h.setObject fun m hk hm => (Option.some.inj hm).symm.trans (hn hk)
    next => exact absurd hstep (Option.some_ne_none _).symm
  | link id messageId =>
    obtain rfl := Option.some.inj hstep
    exact h.update id fun _ => ⟨rfl, rfl⟩
  | evict id now deletes =>
    obtain rfl := Option.some.inj hstep
    exact (h.deleteRowObject bucket id deletes).update id fun _ => ⟨rfl, rfl⟩
  | remove id deletes =>
    obtain rfl := Option.some.inj hstep
    exact h.remove bucket id deletes
  | reconcile uploaderId =>
    obtain rfl := Option.some.inj hstep
    exact h.reconcile uploaderId
  | check i now head deletes => exact h.check hstep
  | restoreComplete now claimed headOk deletes body =>
    simp only [storage] at hstep
    split at hstep
    next hbody =>
      obtain rfl := Option.some.inj hstep
      obtain ⟨hs, hrefused⟩ := h.restoreComplete hmax bucket hbody now claimed headOk deletes
      rw [noteRefusal]
      split
      next hanswer =>
        refine { hs with rejected := fun hmem => ?_ }
        rcases List.mem_append.1 hmem with hold | hnew
        · exact hs.rejected hold
        · exact hrefused hanswer (List.mem_singleton.1 hnew).symm
      next => exact hs
    next => exact absurd hstep (Option.some_ne_none _).symm

theorem tracks_of_reachable {size id now : ℕ} {recorded : Bool} {s : Store}
    (hmax : size + GCM_TAG_BYTES ≤ effectiveMaxUploadBytes env)
    (hfits : recorded → Fits env size up.contentType)
    (hs : (storage env bucket up.filePath size (Started up ctx body id now recorded)).Reachable s) :
    s.Tracks env up.filePath size := by
  refine hs.invariant ?_ fun s e s' _ h hstep => tracks_step hmax h hstep
  rintro _ ⟨s₀, hlacks, rfl⟩
  split
  next hrecorded => exact (hlacks.tracks env size).insert fun _ => hfits hrecorded
  next => exact hlacks.tracks env size

theorem uploadUrl_eq_ok (h : uploadUrl env bucket ctx body = .ok up) :
    uploadBodyValid env body ∧ isAllowedMimeType body.fileType ∧
      body.fileSize ≤ categoryLimitBytes env (categorizeMime body.fileType) ∧
      up = {
        filePath := objectKey body.chatId ctx.userId ctx.uuid body.ext
        bucket
        contentType := storedContentType body.fileType body.ext } := by
  rw [uploadUrl] at h
  split at h
  next => cases h
  next hvalid =>
  split at h
  next => cases h
  next =>
  split at h
  next => cases h
  next =>
  split at h
  next => cases h
  next hmime =>
  split at h
  next => cases h
  next hsize =>
  split at h
  next => cases h
  next =>
  split at h
  next => cases h
  next =>
    exact ⟨Decidable.not_not.1 hvalid, Decidable.not_not.1 hmime, Nat.le_of_not_lt hsize,
      (Except.ok.inj h).symm⟩

/-- The request that ends the restoration of an upload. -/
def UploadBody.restore (body : UploadBody) (up : Presigned) : RestoreBody :=
  ⟨up.filePath, body.fileType, body.fileSize⟩

theorem restoreBodyValid_restore (h : uploadBodyValid env body) (hne : up.filePath.toList ≠ [])
    (hlen : up.filePath.toList.length ≤ 129) : restoreBodyValid env (body.restore up) := by
  obtain ⟨-, htype, hsize⟩ := of_decide_eq_true h
  have hle := utf16Length_le up.filePath.toList
  have hpos := le_utf16Length up.filePath.toList
  have hlength := List.length_pos_iff.2 hne
  refine decide_eq_true ⟨⟨?_, ?_⟩, htype, hsize⟩
  · exact hlength.trans_le hpos
  · change utf16Length up.filePath.toList ≤ 2048
    omega

theorem trim_filePath (h : uploadUrl env bucket ctx body = .ok up) :
    trim up.filePath = up.filePath := by
  obtain ⟨-, -, -, hup⟩ := uploadUrl_eq_ok h
  obtain ⟨word, hword, hext⟩ := exists_extensionFromFileName (sanitizeFileName body.fileName)
  rw [hup]
  dsimp only [UploadBody.ext]
  rw [hext, trim_objectKey _ _ _ hword]

/-- A restoration of an upload gets to its size. -/
theorem restoreComplete_upload (h : uploadUrl env bucket ctx body = .ok up) {s : Store}
    (row : UploadRow) (hrow : s.rows.find? (fun row => row.objectKey = up.filePath) = some row)
    (htype : row.contentType = up.contentType) {n : ℕ}
    (hobject : s.objects (row.bucketOr bucket) up.filePath = some n)
    (hlimit : categoryLimitBytes env (categorizeMime up.contentType) < n) (now : ℕ)
    (deletes : Bool) :
    (restoreComplete env bucket now true true deletes (body.restore up) s).2 =
      .categoryLimitExceeded (categorizeMime up.contentType)
        (categoryLimitBytes env (categorizeMime up.contentType)) n := by
  obtain ⟨hvalid, hmime, -, hup⟩ := uploadUrl_eq_ok h
  obtain ⟨word, hword, hext⟩ := exists_extensionFromFileName (sanitizeFileName body.fileName)
  obtain ⟨start, hkey, hlen, -⟩ :=
    intercalate_keyFields body.chatId ctx.userId ctx.uuid word
  have hpath : up.filePath =
      objectKey body.chatId ctx.userId ctx.uuid (String.ofList ('.' :: word)) := by
    rw [hup, UploadBody.ext, hext]
  have htrim := trim_filePath h
  have hrestorable : isRestorable up.filePath := by
    rw [hpath]
    exact isRestorable_objectKey _ _ _ hword
  have hpathExt : extensionFromFileName up.filePath = body.ext := by
    rw [hpath, objectKey_eq, hkey, extensionFromFileName_append hword, UploadBody.ext, hext]
  have hlen' : up.filePath.toList.length ≤ 129 := by
    have hword' := hword.length_le
    rw [hpath, objectKey_eq, hkey, String.toList_ofList, List.length_append, List.length_cons,
      List.length_cons, hlen]
    omega
  have hvalid' : restoreBodyValid env (body.restore up) := by
    refine restoreBodyValid_restore hvalid ?_ hlen'
    rw [hpath]
    exact objectKey_ne_nil _ _ _ _
  have hstored : storedContentType body.fileType body.ext = row.contentType := by
    rw [htype, hup]
  rw [UploadBody.restore] at hvalid' ⊢
  simp only [restoreComplete, htrim, hvalid', hrestorable, hmime, not_true_eq_false, if_false,
    hrow, hpathExt, hstored, ne_eq, headObjectSize, if_true, hobject, Option.getD_some, htype,
    hlimit]

/-- The store before any upload. -/
def Store.empty : Store := ⟨[], fun _ _ => none, [], [], []⟩

theorem Store.lacks_empty (key : String) : Store.empty.Lacks key where
  rows _ h := absurd h List.not_mem_nil
  reconciling _ h := absurd h List.not_mem_nil
  objects _ := rfl
  removed := List.not_mem_nil
  rejected := List.not_mem_nil

/-- The limit of the type that an upload is stored with; without a row, only that of the
    requests. -/
def UploadBody.storedLimit (env : Env) (body : UploadBody) (recorded : Bool) : ℕ :=
  if ¬ recorded then effectiveMaxUploadBytes env
  else if isNeutralized body.fileType body.ext then categoryLimitBytes env .file
  else categoryLimitBytes env (categorizeMime body.fileType)

theorem storedLimit_recorded (h : uploadUrl env bucket ctx body = .ok up) :
    body.storedLimit env true = categoryLimitBytes env (categorizeMime up.contentType) := by
  obtain ⟨-, -, -, hup⟩ := uploadUrl_eq_ok h
  rw [hup, categorizeMime_storedContentType, UploadBody.storedLimit, if_neg (by simp)]
  split <;> rfl

theorem storedLimit_le (recorded : Bool) :
    body.storedLimit env recorded ≤ effectiveMaxUploadBytes env := by
  rw [UploadBody.storedLimit]
  split
  · exact Nat.le_refl _
  · split <;> exact categoryLimitBytes_le env _

/-- A step that refuses a restoration of an upload. -/
theorem exists_rejected {key : String} {size : ℕ} (now : ℕ) {init : Store → Prop} {s : Store}
    (hs : (storage env bucket key size init).Reachable s) (request : RestoreBody)
    (hpath : trim request.filePath = key) (hsize : request.fileSize ≤ size + GCM_TAG_BYTES)
    (hrefused : refusedForSize env request
      (restoreComplete env bucket now true true true request s).2) :
    ∃ s', (storage env bucket key size init).Reachable s' ∧ key ∈ s'.rejected := by
  have hstep : (storage env bucket key size init).step s
      (.restoreComplete now true true true request) = some _ := if_pos fun _ => hsize
  refine ⟨_, hs.step hstep, ?_⟩
  rw [noteRefusal, if_pos hrefused, hpath]
  exact List.mem_append_right _ List.mem_cons_self

/-- An upload whose ciphertext is over the limit is refused, once its object is there. -/
theorem exists_rejected_recorded (h : uploadUrl env bucket ctx body = .ok up) (id now : ℕ)
    (hlimit : body.storedLimit env true < body.fileSize + GCM_TAG_BYTES) :
    ∃ s, (storage env bucket up.filePath body.fileSize
        (Started up ctx body id now true)).Reachable s ∧ up.filePath ∈ s.rejected := by
  obtain ⟨-, -, -, hup⟩ := uploadUrl_eq_ok h
  have hstart : Started up ctx body id now true (Store.empty.insert (up.row ctx body id now)) :=
    ⟨.empty, Store.lacks_empty _, rfl⟩
  have hput : (storage env bucket up.filePath body.fileSize
      (Started up ctx body id now true)).step (Store.empty.insert (up.row ctx body id now))
      (.put bucket up.filePath (body.fileSize + GCM_TAG_BYTES)) = some _ := if_pos fun _ => rfl
  have hbucket : (up.row ctx body id now).bucketOr bucket = bucket := by
    have hrow : (up.row ctx body id now).bucket = bucket := congrArg Presigned.bucket hup
    rw [UploadRow.bucketOr, hrow, ite_self]
  rw [storedLimit_recorded h] at hlimit
  refine exists_rejected now (.step (.init hstart) hput) (body.restore up) (trim_filePath h)
    (Nat.le_add_right _ _) ?_
  rw [restoreComplete_upload h (up.row ctx body id now) ?_ rfl ?_ hlimit]
  · rfl
  · exact List.find?_cons_of_pos (decide_eq_true rfl)
  · rw [hbucket]
    exact if_pos ⟨rfl, rfl⟩

/-- **The checks agree.** An accepted upload is never removed or refused for its size, exactly
    where its ciphertext is within the limit of what it is stored as. -/
theorem limits_agree_iff {id now : ℕ} {recorded : Bool}
    (h : uploadUrl env bucket ctx body = .ok up) :
    (∀ s, (storage env bucket up.filePath body.fileSize
        (Started up ctx body id now recorded)).Reachable s →
          up.filePath ∉ s.removed ∧ up.filePath ∉ s.rejected) ↔
      body.fileSize + GCM_TAG_BYTES ≤ body.storedLimit env recorded := by
  constructor
  · intro hnever
    refine Nat.le_of_not_lt fun hlimit => ?_
    obtain ⟨s, hs, hrejected⟩ : ∃ s, (storage env bucket up.filePath body.fileSize
        (Started up ctx body id now recorded)).Reachable s ∧ up.filePath ∈ s.rejected := by
      cases recorded with
      | true => exact exists_rejected_recorded h id now hlimit
      | false =>
        -- A request that declares the ciphertext is over the limit of all requests.
        refine exists_rejected now (.init ⟨.empty, Store.lacks_empty _, rfl⟩)
          ⟨up.filePath, body.fileType, body.fileSize + GCM_TAG_BYTES⟩ (trim_filePath h)
          (Nat.le_refl _) ?_
        have hinvalid : ¬ restoreBodyValid env
            ⟨up.filePath, body.fileType, body.fileSize + GCM_TAG_BYTES⟩ := fun hvalid =>
          Nat.not_le.2 hlimit (of_decide_eq_true hvalid).2.2.2
        rw [restoreComplete, if_pos hinvalid]
        exact decide_eq_true hlimit
    exact (hnever s hs).2 hrejected
  · intro hfits s hs
    have htracks := tracks_of_reachable (hfits.trans (storedLimit_le recorded)) (fun hrecorded => by
      obtain rfl : recorded = true := hrecorded
      exact hfits.trans_eq (storedLimit_recorded h)) hs
    exact ⟨htracks.removed, htracks.rejected⟩

end

namespace Sample

def uuid : Uuid := ⟨"6f1c2d3e-0a1b-4c2d-8e3f-9a0b1c2d3e4f", by decide +kernel⟩

def defaults : Env := fun _ => none

def uploader : UploadContext := ⟨uuid, 0, 0, true, uuid⟩

/-- A picture of 24 MiB. -/
def picture : UploadBody := ⟨"cat.png", "image/png", uuid, 24 * 1024 * 1024⟩

/-- A picture that is as large as a picture may be. -/
def largest : UploadBody := ⟨"cat.png", "image/png", uuid, 25 * 1024 * 1024⟩

/-- A video of 200 MiB, in a file with the extension of a program. -/
def stream : UploadBody := ⟨"clip.ts", "video/mp2t", uuid, 200 * 1024 * 1024⟩

def presigned (body : UploadBody) (contentType : String) : Presigned :=
  ⟨objectKey uuid uuid uuid body.ext, "media", contentType⟩

def removal (body : UploadBody) (key : String) : List Move :=
  [.put "media" key (body.fileSize + GCM_TAG_BYTES), .reconcile uuid,
    .check 0 60000 (.answered true) true]

end Sample

open Sample

theorem limits_agree_iff_picture :
    uploadUrl defaults "media" uploader picture = .ok (presigned picture "image/png") ∧
      ∀ s, (storage defaults "media" (presigned picture "image/png").filePath picture.fileSize
        (Started (presigned picture "image/png") uploader picture 1 0 true)).Reachable s →
          (presigned picture "image/png").filePath ∉ s.removed ∧
            (presigned picture "image/png").filePath ∉ s.rejected := by
  have hok : uploadUrl defaults "media" uploader picture = .ok (presigned picture "image/png") := by
    decide +kernel
  exact ⟨hok, (limits_agree_iff hok).2 (by decide +kernel)⟩

/-- The largest picture is refused when it is restored; the video, which is stored as a file, is
    removed by a reconciliation. -/
theorem accepted_then_refused :
    (uploadUrl defaults "media" uploader largest = .ok (presigned largest "image/png") ∧
      ∃ s, (storage defaults "media" (presigned largest "image/png").filePath largest.fileSize
        (Started (presigned largest "image/png") uploader largest 1 0 true)).Reachable s ∧
          (presigned largest "image/png").filePath ∈ s.rejected) ∧
    (uploadUrl defaults "media" uploader stream = .ok (presigned stream OCTET_STREAM) ∧
      ∃ s, (storage defaults "media" (presigned stream OCTET_STREAM).filePath stream.fileSize
        (Started (presigned stream OCTET_STREAM) uploader stream 1 0 true)).Reachable s ∧
          (presigned stream OCTET_STREAM).filePath ∈ s.removed) := by
  have hlargest : uploadUrl defaults "media" uploader largest =
      .ok (presigned largest "image/png") := by decide +kernel
  have hstream : uploadUrl defaults "media" uploader stream =
      .ok (presigned stream OCTET_STREAM) := by decide +kernel
  refine ⟨⟨hlargest, exists_rejected_recorded hlargest 1 0 (by decide +kernel)⟩, hstream, ?_⟩
  have hrun : ((storage defaults "media" (presigned stream OCTET_STREAM).filePath stream.fileSize
      (Started (presigned stream OCTET_STREAM) uploader stream 1 0 true)).run
        (Store.empty.insert ((presigned stream OCTET_STREAM).row uploader stream 1 0))
        (removal stream (presigned stream OCTET_STREAM).filePath)).any (fun s =>
          (presigned stream OCTET_STREAM).filePath ∈ s.removed) := by decide +kernel
  obtain ⟨s, hs, hremoved⟩ := (Option.any_eq_true _ _).1 hrun
  exact ⟨s, Machine.reachable_of_run hs ⟨.empty, Store.lacks_empty _, rfl⟩,
    of_decide_eq_true hremoved⟩

end OneToThree.Media
