import Mathlib.Data.List.Nodup
import OneToThree.Lib.InsMap
import OneToThree.Lib.Json

/-!
# Chat folders

The folders that a user sorts chats into, in `localStorage`: the text of the folders, and its
checksum. Reading validates what is stored, replaces the system folders by the built-in ones,
and compares the checksum with that of the text that the result would be stored as; writing
stores that text, the folders being sorted by their ids.

The checksum is that of a text, so a folder is modelled with the properties its object has,
in their order (`ChatFolder.order`, `ChatFolderRule.props`). A stored text is modelled by what
`JSON.parse` makes of it, an empty one counting as none, and storage is assumed to work. The
comparison of ids is a parameter (`Collation`).
-/

namespace OneToThree.Folders

/-- `a.localeCompare(b) <= 0`. -/
structure Collation where
  le : String → String → Bool
  trans : ∀ a b c, le a b → le b c → le a c
  total : ∀ a b, le a b || le b a

/-! ## Rules -/

inductive RuleKey
  | includeDirect
  | includeGroups
  | includeChannels
  | includeSaved
  | includeMuted
  | includeRead
  | onlyUnread
  | selectedOnly
  | onlyBroadcastChannels
  deriving DecidableEq

namespace RuleKey

def text : RuleKey → String
  | includeDirect => "includeDirect"
  | includeGroups => "includeGroups"
  | includeChannels => "includeChannels"
  | includeSaved => "includeSaved"
  | includeMuted => "includeMuted"
  | includeRead => "includeRead"
  | onlyUnread => "onlyUnread"
  | selectedOnly => "selectedOnly"
  | onlyBroadcastChannels => "onlyBroadcastChannels"

/-- The properties that every rule has. -/
def required : List RuleKey :=
  [includeDirect, includeGroups, includeChannels, includeSaved, includeMuted, includeRead]

/-- The properties, in the order in which validation writes them. -/
def all : List RuleKey := required ++ [onlyUnread, selectedOnly, onlyBroadcastChannels]

end RuleKey

/-- The rule of a folder: its properties, in their order. -/
structure ChatFolderRule where
  props : InsMap RuleKey Bool
  required : ∀ k ∈ RuleKey.required, props.has k = true

/-- A property, where an absent one is `undefined`. -/
def ChatFolderRule.get (rule : ChatFolderRule) (k : RuleKey) : Bool :=
  (rule.props.get? k).getD false

/-- The rule with the properties of `ks` and their values, in that order. -/
def ChatFolderRule.ofKeys (ks : List RuleKey) (hks : ks.Nodup)
    (hrequired : ∀ k ∈ RuleKey.required, k ∈ ks) (value : RuleKey → Bool) : ChatFolderRule where
  props := ⟨ks.map fun k => (k, value k), by simpa [Function.comp_def] using hks⟩
  required k hk := InsMap.mem_keys_iff_has.1 (by
    simpa [InsMap.keys, Function.comp_def] using hrequired k hk)

/-- The rule with every property, in the order of validation. -/
def ChatFolderRule.full (value : RuleKey → Bool) : ChatFolderRule :=
  .ofKeys RuleKey.all (by decide) (by decide) value

def defaultRule : ChatFolderRule :=
  .ofKeys RuleKey.required (by decide) (by decide) (· ≠ .includeSaved)

/-- `{ ...rule, [k]: b }`. -/
def ChatFolderRule.set (rule : ChatFolderRule) (k : RuleKey) (b : Bool) : ChatFolderRule where
  props := rule.props.set k b
  required k' hk' := by rw [InsMap.has_set, rule.required k' hk', Bool.or_true]

/-! ## Folders -/

inductive FolderKey
  | id
  | name
  | isSystem
  | chatIds
  | excludedChatIds
  | rule
  deriving DecidableEq

def FolderKey.text : FolderKey → String
  | id => "id"
  | name => "name"
  | isSystem => "isSystem"
  | chatIds => "chatIds"
  | excludedChatIds => "excludedChatIds"
  | rule => "rule"

/-- The properties of a folder, in the order in which validation writes them. -/
def FolderKey.all : List FolderKey := [id, name, isSystem, chatIds, excludedChatIds, rule]

/-- The properties of a folder without the optional one. -/
def FolderKey.required : List FolderKey := [id, name, chatIds, excludedChatIds, rule]

structure ChatFolder where
  id : String
  name : String
  isSystem : Option Bool
  chatIds : List String
  excludedChatIds : List String
  rule : ChatFolderRule
  /-- The properties that the object has, in their order. -/
  order : List FolderKey
  order_nodup : order.Nodup
  mem_order : ∀ k, k ∈ order ↔ (k = .isSystem → isSystem.isSome = true)

/-- `Boolean(f.isSystem)`. -/
def ChatFolder.system (f : ChatFolder) : Bool := f.isSystem.getD false

/-- A folder with every property, in the order of validation. -/
def ChatFolder.full (id name : String) (isSystem : Bool) (chatIds excludedChatIds : List String)
    (rule : ChatFolderRule) : ChatFolder where
  id := id
  name := name
  isSystem := some isSystem
  chatIds := chatIds
  excludedChatIds := excludedChatIds
  rule := rule
  order := FolderKey.all
  order_nodup := by decide
  mem_order k := by cases k <;> simp [FolderKey.all]

/-! ## The canonical text -/

/-- The UTF-16 code units of a text, by which JavaScript compares and hashes it. -/
def codeUnits (s : String) : List ℕ :=
  s.toList.flatMap fun c =>
    if c.toNat < 0x10000 then [c.toNat]
    else [0xd800 + (c.toNat - 0x10000) / 0x400, 0xdc00 + (c.toNat - 0x10000) % 0x400]

/-- The order of the code units, the first that differ deciding. -/
def unitsLe : List ℕ → List ℕ → Bool
  | [], _ => true
  | _ :: _, [] => false
  | a :: l, b :: m => a < b || (a = b && unitsLe l m)

/-- `[...new Set(ids)].sort()`. -/
def sortedIds (ids : List String) : List String :=
  (ids.foldl InsSet.add ∅).keys.mergeSort fun a b => unitsLe (codeUnits a) (codeUnits b)

/-- A folder with its ids in order. -/
def ChatFolder.canonical (f : ChatFolder) : ChatFolder :=
  { f with chatIds := sortedIds f.chatIds, excludedChatIds := sortedIds f.excludedChatIds }

variable {N : Type} [JsNumber N]

omit [JsNumber N] in
def ChatFolderRule.toJson (rule : ChatFolderRule) : Json N :=
  .obj (rule.props.entries.map fun p => (p.1.text, .bool p.2))

/-- The value of a property. -/
def ChatFolder.value (f : ChatFolder) : FolderKey → Json N
  | .id => .str f.id
  | .name => .str f.name
  | .isSystem => .bool f.system
  | .chatIds => .arr (f.chatIds.map .str)
  | .excludedChatIds => .arr (f.excludedChatIds.map .str)
  | .rule => f.rule.toJson

def ChatFolder.toJson (f : ChatFolder) : Json N := .obj (f.order.map fun k => (k.text, f.value k))

/-- The array whose text `canonicalJson` returns. -/
def canonicalJson (C : Collation) (folders : List ChatFolder) : Json N :=
  .arr (((folders.map ChatFolder.canonical).mergeSort fun a b => C.le a.id b.id).map
    ChatFolder.toJson)

def djb2Hex (s : String) : String :=
  let hash := (codeUnits s).foldl
    (fun (hash : BitVec 32) unit => ((hash <<< 5) + hash) ^^^ BitVec.ofNat 32 unit) 5381#32
  String.ofList (Nat.toDigits 16 hash.toNat)

/-- The checksum of the text of a value. -/
def checksum (body : Json N) : String := djb2Hex body.stringify

/-! ## Reading -/

/-- A built-in folder. -/
def systemFolder (id name : String) (rule : ChatFolderRule) : ChatFolder :=
  .full id name true [] [] rule

def defaultFolders : List ChatFolder :=
  [systemFolder "all" "Все" defaultRule,
    systemFolder "unread" "Непрочитанные"
      (((defaultRule.set .includeSaved false).set .includeRead false).set .onlyUnread true),
    systemFolder "direct" "Личные"
      ((defaultRule.set .includeGroups false).set .includeChannels false),
    systemFolder "groups" "Группы"
      ((defaultRule.set .includeDirect false).set .includeChannels false),
    systemFolder "channels" "Каналы"
      ((defaultRule.set .includeDirect false).set .includeGroups false),
    systemFolder "channels_broadcast" "Эфиры"
      (((defaultRule.set .includeDirect false).set .includeGroups false).set
        .onlyBroadcastChannels true)]

omit [JsNumber N] in
/-- The value, if it is a text. -/
def asText : Json N → Option String
  | .str s => some s
  | _ => none

omit [JsNumber N] in
/-- The texts of an array; none if the value is not an array. -/
def texts : Option (Json N) → List String
  | some (.arr elems) => elems.filterMap asText
  | _ => []

/-- `typeof x === 'boolean' ? x : true`. -/
def boolOrTrue : Option (Json N) → Bool
  | some (.bool b) => b
  | _ => true

/-- The rule that validation makes of a value. -/
def validateRule (rule : Json N) : ChatFolderRule :=
  .full fun k =>
    match k with
    | .includeMuted | .includeRead => boolOrTrue (rule.get? k.text)
    | k => Json.truthy (rule.get? k.text)

/-- The folder that validation makes of an element of the stored array, if it is one. -/
def validateFolder (item : Json N) : Option ChatFolder :=
  match item.get? "id", item.get? "name" with
  | some (.str id), some (.str name) =>
    some (.full id name (Json.truthy (item.get? "isSystem")) (texts (item.get? "chatIds"))
      (texts (item.get? "excludedChatIds"))
      (validateRule (Json.orElse (item.get? "rule") defaultRule.toJson)))
  | _, _ => none

def validateFolders (input : Json N) : Option (List ChatFolder) :=
  match input with
  | .arr items =>
    let parsed := items.filterMap validateFolder
    if parsed.isEmpty then none
    else some (defaultFolders ++ parsed.filter fun f => !f.system)
  | _ => none

/-! ## Storage -/

/-- What `JSON.parse` makes of the text of the folders. -/
inductive FoldersText (N : Type)
  | unparseable
  | json (value : Json N)

structure LocalStorage (N : Type) where
  folders : Option (FoldersText N)
  checksum : Option String

/-- Nothing is stored. -/
def LocalStorage.empty : LocalStorage N := ⟨none, none⟩

namespace LocalStorage

variable (C : Collation) (s : LocalStorage N)

/-- The folders. On a checksum that does not match, the storage is cleared. -/
def readRaw : List ChatFolder × LocalStorage N :=
  match s.folders with
  | none | some .unparseable => (defaultFolders, s)
  | some (.json value) =>
    match validateFolders value with
    | none => (defaultFolders, s)
    | some parsed =>
      let expected := Folders.checksum (canonicalJson C parsed : Json N)
      if (s.checksum.filter (· ≠ "")).any (· ≠ expected) then
        (defaultFolders, { s with folders := none, checksum := none })
      else if parsed.any (·.id = "all") then (parsed, s)
      else (defaultFolders, s)

/-- What is written for a list of folders. -/
def safe (folders : List ChatFolder) : List ChatFolder :=
  if folders.isEmpty then defaultFolders else folders

/-- The storage after writing a list of folders. -/
def writeRaw (folders : List ChatFolder) : LocalStorage N :=
  let body := canonicalJson C (safe folders)
  { folders := some (.json body), checksum := some (Folders.checksum body) }

def loadChatFolders : List ChatFolder × LocalStorage N := s.readRaw C

def saveChatFolders (folders : List ChatFolder) : LocalStorage N := writeRaw C folders

end LocalStorage

/-! ## The operations -/

/-- The white space that `trim` removes. -/
def isSpace (c : Char) : Bool :=
  let n := c.toNat
  (9 ≤ n && n ≤ 13) || n = 0x20 || n = 0xa0 || n = 0x1680 || (0x2000 ≤ n && n ≤ 0x200a) ||
    n = 0x2028 || n = 0x2029 || n = 0x202f || n = 0x205f || n = 0x3000 || n = 0xfeff

def trim (s : String) : String :=
  String.ofList ((s.toList.dropWhile isSpace).reverse.dropWhile isSpace).reverse

/-- A digit of `toString(36)`. -/
def digit36 (d : ℕ) : Char := if d < 10 then Char.ofNat (48 + d) else Char.ofNat (87 + d)

/-- The digits of `n` to the base 36, the most significant first, for `fuel` digits at most. -/
def digits36 : ℕ → ℕ → List Char
  | 0, _ => []
  | fuel + 1, n =>
    if n < 36 then [digit36 n] else digits36 fuel (n / 36) ++ [digit36 (n % 36)]

/-- The id of a folder made at this time. -/
def folderId (now : ℕ) : String := "folder_" ++ String.ofList (digits36 (now + 1) now)

/-- The rule of a new folder. -/
def newRule : ChatFolderRule :=
  .ofKeys (RuleKey.required ++ [.selectedOnly]) (by decide) (by decide) fun k =>
    k ∈ [.includeDirect, .includeGroups, .includeMuted, .includeRead]

/-- The rule that a folder is reset to. -/
def resetRule : ChatFolderRule :=
  .ofKeys (RuleKey.required ++ [.selectedOnly, .onlyUnread, .onlyBroadcastChannels]) (by decide)
    (by decide) fun k => k ∈ [.includeDirect, .includeGroups, .includeMuted, .includeRead]

/-- A new folder. -/
def newFolder (now : ℕ) (name : String) : ChatFolder where
  id := folderId now
  name := if trim name = "" then "Новая папка" else trim name
  isSystem := none
  chatIds := []
  excludedChatIds := []
  rule := newRule
  order := FolderKey.required
  order_nodup := by decide
  mem_order k := by cases k <;> simp [FolderKey.required]

/-- `{ ...source, isSystem: b }`. -/
def ChatFolder.withSystem (source : ChatFolder) (b : Bool) : ChatFolder :=
  { source with
    isSystem := some b
    order := if .isSystem ∈ source.order then source.order else source.order ++ [.isSystem]
    order_nodup := by
      split_ifs with h
      · exact source.order_nodup
      · exact source.order_nodup.append (List.nodup_singleton _) (by simpa using h)
    mem_order := fun k => by
      have hk := source.mem_order k
      by_cases h : k = .isSystem
      · subst h
        split_ifs with h <;> simp [h]
      · have hmem : k ∈ source.order := hk.2 fun h' => absurd h' h
        split_ifs <;> simp [hmem] }

/-- A copy of a folder. -/
def ChatFolder.copy (source : ChatFolder) (now : ℕ) : ChatFolder :=
  { source.withSystem false with id := folderId now, name := source.name ++ " (copy)" }

inductive Direction
  | left
  | right
  deriving DecidableEq

/-- The folders that are not built in. -/
def custom (folders : List ChatFolder) : List ChatFolder := folders.filter fun f => !f.system

def system (folders : List ChatFolder) : List ChatFolder := folders.filter ChatFolder.system

/-- The position of the folder with this id. -/
def findIdx (folders : List ChatFolder) (id : String) : Option ℕ :=
  folders.findIdx? fun f => f.id = id

/-! ### What they write, given what they read -/

def created (folders : List ChatFolder) (now : ℕ) (name : String) : List ChatFolder :=
  folders ++ [newFolder now name]

def upserted (folders : List ChatFolder) (folder : ChatFolder) : List ChatFolder :=
  folders.map fun f => if f.id = folder.id then folder else f

def deleted (folders : List ChatFolder) (folderId : String) : List ChatFolder :=
  folders.filter fun f => f.id ≠ folderId && !f.system

/-- The neighbouring position; none beyond either end. -/
def Direction.swap (direction : Direction) (idx length : ℕ) : Option ℕ :=
  match direction with
  | .left => if idx = 0 then none else some (idx - 1)
  | .right => if length ≤ idx + 1 then none else some (idx + 1)

def moved (folders : List ChatFolder) (folderId : String) (direction : Direction) :
    Option (List ChatFolder) := do
  let custom := custom folders
  let idx ← findIdx custom folderId
  let swap ← direction.swap idx custom.length
  let tmp ← custom[idx]?
  let other ← custom[swap]?
  return system folders ++ (custom.set idx other).set swap tmp

def reordered (folders : List ChatFolder) (sourceId targetId : String) :
    Option (List ChatFolder) := do
  let custom := custom folders
  let sourceIdx ← findIdx custom sourceId
  let targetIdx ← findIdx custom targetId
  let moved ← custom[sourceIdx]?
  let next := custom.eraseIdx sourceIdx
  return system folders ++ (next.take targetIdx ++ moved :: next.drop targetIdx)

def duplicated (folders : List ChatFolder) (now : ℕ) (folderId : String) :
    Option (List ChatFolder) :=
  match folders.find? fun f => f.id = folderId with
  | none => none
  | some source => if source.system then none else some (folders ++ [source.copy now])

def reset (folders : List ChatFolder) (folderId : String) : List ChatFolder :=
  folders.map fun f => if f.id ≠ folderId || f.system then f else { f with rule := resetRule }

namespace LocalStorage

variable (C : Collation) (s : LocalStorage N)

def createChatFolder (now : ℕ) (name : String) : LocalStorage N :=
  let (folders, _) := s.readRaw C
  writeRaw C (created folders now name)

def upsertChatFolder (folder : ChatFolder) : LocalStorage N :=
  if folder.system then s
  else
    let (folders, _) := s.readRaw C
    writeRaw C (upserted folders folder)

def deleteChatFolder (folderId : String) : LocalStorage N :=
  let (folders, _) := s.readRaw C
  writeRaw C (deleted folders folderId)

def moveChatFolder (folderId : String) (direction : Direction) : LocalStorage N :=
  let (folders, s) := s.readRaw C
  match moved folders folderId direction with
  | none => s
  | some next => writeRaw C next

def reorderCustomFolders (sourceId targetId : String) : LocalStorage N :=
  if sourceId = targetId then s
  else
    let (folders, s) := s.readRaw C
    match reordered folders sourceId targetId with
    | none => s
    | some next => writeRaw C next

def duplicateChatFolder (now : ℕ) (folderId : String) : LocalStorage N :=
  let (folders, s) := s.readRaw C
  match duplicated folders now folderId with
  | none => s
  | some next => writeRaw C next

def resetChatFolderRules (folderId : String) : LocalStorage N :=
  let (folders, _) := s.readRaw C
  writeRaw C (reset folders folderId)

end LocalStorage

/-- The exported operations. -/
inductive FolderOp
  | create (now : ℕ) (name : String)
  | upsert (folder : ChatFolder)
  | delete (folderId : String)
  | move (folderId : String) (direction : Direction)
  | reorder (sourceId targetId : String)
  | duplicate (now : ℕ) (folderId : String)
  | reset (folderId : String)
  | save (folders : List ChatFolder)

/-- The storage after an operation. -/
def LocalStorage.apply (C : Collation) (s : LocalStorage N) : FolderOp → LocalStorage N
  | .create now name => s.createChatFolder C now name
  | .upsert folder => s.upsertChatFolder C folder
  | .delete folderId => s.deleteChatFolder C folderId
  | .move folderId direction => s.moveChatFolder C folderId direction
  | .reorder sourceId targetId => s.reorderCustomFolders C sourceId targetId
  | .duplicate now folderId => s.duplicateChatFolder C now folderId
  | .reset folderId => s.resetChatFolderRules C folderId
  | .save folders => saveChatFolders C folders

end OneToThree.Folders
