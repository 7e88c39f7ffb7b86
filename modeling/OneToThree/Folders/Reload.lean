import OneToThree.Folders.ChatFolders
import OneToThree.Lib.StableSort

/-!
# Reloading the folders

What `loadChatFolders` returns after the folders were written.

* What is read back of a list is the built-in folders and, in the order of their ids, the
  other ones with all their properties (`readRaw_writeRaw`): a list comes back as it was written
  exactly if it has this form (`Normal`, `readRaw_writeRaw_iff`).
* The operations do not keep to it: a new folder lacks properties, a reset rule has them in
  another order, moving a folder takes it out of the order of the ids, and deleting one
  leaves out the built-in folders. `FolderOp.Survives` says of each operation when what it
  writes comes back.

`reloads_iff`: along a sequence of operations, every load returns what was written exactly if
each operation survives.
-/

namespace OneToThree.Folders

variable {N : Type} [JsNumber N] {C : Collation}

/-! ## A folder, stored and validated -/

theorem RuleKey.text_injective : Function.Injective RuleKey.text := by
  intro a b h
  cases a <;> cases b <;> first | rfl | exact absurd h (by decide)

theorem FolderKey.text_injective : Function.Injective FolderKey.text := by
  intro a b h
  cases a <;> cases b <;> first | rfl | exact absurd h (by decide)

/-- Looking up a property among those that are there. -/
theorem lookup_map_text {K V : Type} [DecidableEq K] {text : K → String}
    (htext : Function.Injective text) (value : K → V) (ks : List K) (k : K) :
    (ks.map fun k => (text k, value k)).lookup (text k) =
      if k ∈ ks then some (value k) else none := by
  induction ks with
  | nil => rfl
  | cons k' ks ih =>
    rw [List.map_cons, List.lookup_cons]
    by_cases h : k = k'
    · simp [h]
    · have hne : (text k == text k') = false := by simpa using fun h' => h (htext h')
      rw [hne, ih]
      simp [h]

omit [JsNumber N] in
theorem ChatFolderRule.get?_toJson (rule : ChatFolderRule) (k : RuleKey) :
    (rule.toJson : Json N).get? k.text = (rule.props.get? k).map .bool := by
  have h : ∀ l : List (RuleKey × Bool),
      (l.map fun p => (p.1.text, (.bool p.2 : Json N))).lookup k.text =
        (InsMap.find k l).map .bool := by
    intro l
    induction l with
    | nil => rfl
    | cons p l ih =>
      rw [List.map_cons, List.lookup_cons, InsMap.find]
      by_cases hk : p.1 = k
      · simp [hk]
      · have hne : (k.text == p.1.text) = false := by
          simpa using fun h => hk (RuleKey.text_injective h).symm
        rw [hne, if_neg hk, ih]
  exact h _

omit [JsNumber N] in
theorem ChatFolder.get?_toJson (f : ChatFolder) (k : FolderKey) :
    (f.toJson : Json N).get? k.text = if k ∈ f.order then some (f.value k) else none :=
  lookup_map_text FolderKey.text_injective f.value f.order k

/-- A rule with all its properties. -/
def ChatFolderRule.normalized (rule : ChatFolderRule) : ChatFolderRule := .full rule.get

/-- A folder with all its properties. -/
def ChatFolder.normalized (f : ChatFolder) : ChatFolder :=
  .full f.id f.name f.system f.chatIds f.excludedChatIds f.rule.normalized

theorem validateRule_toJson (rule : ChatFolderRule) :
    validateRule (rule.toJson : Json N) = rule.normalized := by
  have hvalue : ∀ k, Json.truthy ((rule.toJson : Json N).get? k.text) = rule.get k := by
    intro k
    rw [rule.get?_toJson, ChatFolderRule.get]
    cases rule.props.get? k <;> rfl
  have htrue : ∀ k ∈ RuleKey.required,
      boolOrTrue ((rule.toJson : Json N).get? k.text) = rule.get k := by
    intro k hk
    obtain ⟨b, hb⟩ := InsMap.has_iff.1 (rule.required k hk)
    rw [rule.get?_toJson, ChatFolderRule.get, hb]
    rfl
  rw [validateRule, ChatFolderRule.normalized]
  congr 1
  funext k
  cases k with
  | includeMuted => exact htrue _ (by decide)
  | includeRead => exact htrue _ (by decide)
  | _ => exact hvalue _

omit [JsNumber N] in
theorem texts_map_str (ids : List String) : texts (some (.arr (ids.map (.str : String → Json N)))) = ids := by
  rw [texts, List.filterMap_map]
  exact List.filterMap_some

theorem validateFolder_toJson (f : ChatFolder) :
    validateFolder (f.toJson : Json N) = some f.normalized := by
  have hmem : ∀ k, k ≠ .isSystem → (f.toJson : Json N).get? k.text = some (f.value k) := by
    intro k hk
    rw [f.get?_toJson, if_pos ((f.mem_order k).2 fun h => absurd h hk)]
  have hsystem : Json.truthy ((f.toJson : Json N).get? "isSystem") = f.system := by
    rw [show "isSystem" = FolderKey.isSystem.text from rfl, f.get?_toJson]
    split_ifs with h
    · rfl
    · have hnone : f.isSystem = none := by
        have := mt (f.mem_order .isSystem).2 h
        simpa using this
      rw [ChatFolder.system, hnone]
      rfl
  have hid : (f.toJson : Json N).get? "id" = some (.str f.id) := hmem .id (by decide)
  have hname : (f.toJson : Json N).get? "name" = some (.str f.name) := hmem .name (by decide)
  have hchats : (f.toJson : Json N).get? "chatIds" = some (.arr (f.chatIds.map .str)) :=
    hmem .chatIds (by decide)
  have hexcluded : (f.toJson : Json N).get? "excludedChatIds" =
      some (.arr (f.excludedChatIds.map .str)) := hmem .excludedChatIds (by decide)
  have hrule : (f.toJson : Json N).get? "rule" = some f.rule.toJson := hmem .rule (by decide)
  rw [validateFolder, hid, hname, hsystem, hchats, hexcluded, hrule]
  have horElse : Json.orElse (some (f.rule.toJson : Json N)) defaultRule.toJson =
      f.rule.toJson := rfl
  simp only [texts_map_str, horElse, validateRule_toJson, ChatFolder.normalized]

/-! ## Normal lists -/

theorem keys_foldl_add (ids : List String) (set : InsSet String)
    (h : (set.keys ++ ids).Nodup) : (ids.foldl InsSet.add set).keys = set.keys ++ ids := by
  induction ids generalizing set with
  | nil => simp
  | cons id ids ih =>
    have hnot : id ∉ set.keys := fun hid =>
      (List.nodup_append.1 h).2.2 id hid id List.mem_cons_self rfl
    have hadd : (set.add id).keys = set.keys ++ [id] := by
      rw [InsSet.add, InsMap.set, dif_neg hnot, InsMap.keys, List.map_append]
      rfl
    rw [List.foldl_cons, ih _ (by rw [hadd]; simpa using h), hadd]
    simp

theorem unitsLe_trans (a b c : List ℕ) (h : unitsLe a b = true) (h' : unitsLe b c = true) :
    unitsLe a c = true := by
  induction a generalizing b c with
  | nil => rfl
  | cons x a ih =>
    cases b with
    | nil => simp [unitsLe] at h
    | cons y b =>
      cases c with
      | nil => simp [unitsLe] at h'
      | cons z c =>
        simp only [unitsLe, Bool.or_eq_true, decide_eq_true_eq, Bool.and_eq_true] at h h' ⊢
        rcases h with h | ⟨rfl, h⟩ <;> rcases h' with h' | ⟨rfl, h'⟩
        · exact .inl (Nat.lt_trans h h')
        · exact .inl h
        · exact .inl h'
        · exact .inr ⟨rfl, ih b c h h'⟩

theorem unitsLe_total (a b : List ℕ) : (unitsLe a b || unitsLe b a) = true := by
  induction a generalizing b with
  | nil => rfl
  | cons x a ih =>
    cases b with
    | nil => rfl
    | cons y b =>
      have hrest := ih b
      simp only [unitsLe, Bool.or_eq_true, decide_eq_true_eq, Bool.and_eq_true] at hrest ⊢
      rcases Nat.lt_trichotomy x y with h | rfl | h
      · exact .inl (.inl h)
      · exact hrest.imp (fun h => .inr ⟨rfl, h⟩) fun h => .inr ⟨rfl, h⟩
      · exact .inr (.inl h)

theorem sortedIds_sortedIds (ids : List String) : sortedIds (sortedIds ids) = sortedIds ids := by
  have hnodup : (sortedIds ids).Nodup :=
    (List.mergeSort_perm _ _).nodup_iff.2 (ids.foldl InsSet.add ∅).nodup
  have hkeys : ((sortedIds ids).foldl InsSet.add ∅).keys = sortedIds ids := by
    rw [keys_foldl_add _ _ (by simpa using hnodup)]
    rfl
  rw [sortedIds, hkeys]
  refine List.mergeSort_of_pairwise (List.pairwise_mergeSort ?_ ?_ _)
  · exact fun a b c => unitsLe_trans _ _ _
  · exact fun a b => unitsLe_total _ _

/-- What validation makes of the properties of a folder that is not built in. -/
def ChatFolder.IsNormal (f : ChatFolder) : Prop :=
  f.system = false ∧ f.canonical.normalized = f

variable (C) in
/-- The built-in folders, and then others with all their properties, in the order of their
    ids. -/
def Normal (folders : List ChatFolder) : Prop :=
  ∃ customs : List ChatFolder, folders = defaultFolders ++ customs ∧
    (∀ f ∈ customs, f.IsNormal) ∧ customs.Pairwise fun a b => C.le a.id b.id

theorem normal_append_iff {customs : List ChatFolder} :
    Normal C (defaultFolders ++ customs) ↔
      (∀ f ∈ customs, f.IsNormal) ∧ customs.Pairwise fun a b => C.le a.id b.id := by
  constructor
  · rintro ⟨customs', h, hnormal⟩
    rwa [List.append_cancel_left h]
  · exact fun h => ⟨customs, rfl, h⟩

theorem normal_defaultFolders : Normal C defaultFolders :=
  ⟨[], (List.append_nil _).symm, fun _ hf => absurd hf List.not_mem_nil, .nil⟩

theorem ChatFolder.IsNormal.canonical_eq {f : ChatFolder} (h : f.IsNormal) : f.canonical = f := by
  have hids : sortedIds f.chatIds = f.chatIds ∧ sortedIds f.excludedChatIds = f.excludedChatIds :=
    ⟨congrArg ChatFolder.chatIds h.2, congrArg ChatFolder.excludedChatIds h.2⟩
  rw [ChatFolder.canonical]
  cases f
  simp_all

theorem canonical_defaultFolders : defaultFolders.map ChatFolder.canonical = defaultFolders := by
  have h : sortedIds [] = [] := List.mergeSort_nil
  simp [defaultFolders, systemFolder, ChatFolder.full, ChatFolder.canonical, h]

/-- The folders that are read back of a list, as far as the checksum matches. -/
def validated (C : Collation) (folders : List ChatFolder) : List ChatFolder :=
  defaultFolders ++ custom ((((folders.map ChatFolder.canonical).mergeSort
    fun a b => C.le a.id b.id)).map ChatFolder.normalized)

theorem validateFolders_canonicalJson {folders : List ChatFolder} (h : folders ≠ []) :
    validateFolders (canonicalJson C folders : Json N) = some (validated C folders) := by
  have hparsed : ∀ l : List ChatFolder,
      (l.map (ChatFolder.toJson : ChatFolder → Json N)).filterMap validateFolder =
        l.map ChatFolder.normalized := by
    intro l
    rw [List.filterMap_map, ← List.filterMap_eq_map]
    exact List.filterMap_congr fun f _ => validateFolder_toJson f
  rw [canonicalJson, validateFolders, hparsed, if_neg]
  · rfl
  · intro hempty
    have hlength := congrArg List.length (List.isEmpty_iff.1 hempty)
    rw [List.length_map, List.length_mergeSort, List.length_map] at hlength
    exact h (List.length_eq_zero_iff.1 hlength)

theorem full_get (value : RuleKey → Bool) (k : RuleKey) :
    (ChatFolderRule.full value).get k = value k := by
  cases k <;> rfl

theorem normalized_normalized (rule : ChatFolderRule) :
    rule.normalized.normalized = rule.normalized := by
  rw [ChatFolderRule.normalized]
  congr 1
  funext k
  exact full_get _ k

/-- What is read back is normal. -/
theorem normal_validated (folders : List ChatFolder) : Normal C (validated C folders) := by
  refine normal_append_iff.2 ⟨fun f hf => ?_, ?_⟩
  · obtain ⟨hf, hsystem⟩ := List.mem_filter.1 hf
    obtain ⟨g, hg, rfl⟩ := List.mem_map.1 hf
    obtain ⟨h, -, rfl⟩ := List.mem_map.1 ((List.mergeSort_perm _ _).mem_iff.1 hg)
    refine ⟨by simpa using hsystem, ?_⟩
    simp only [ChatFolder.normalized, ChatFolder.canonical, ChatFolder.full, ChatFolder.system,
      sortedIds_sortedIds, normalized_normalized, Option.getD_some]
  · refine List.Pairwise.filter _ (List.pairwise_map.2 ?_)
    exact List.pairwise_mergeSort (fun a b c => C.trans a.id b.id c.id)
      (fun a b => C.total a.id b.id) _

theorem ChatFolder.IsNormal.normalized_eq {f : ChatFolder} (h : f.IsNormal) : f.normalized = f := by
  have := h.2
  rwa [h.canonical_eq] at this

theorem custom_defaultFolders : custom defaultFolders = [] := rfl

theorem custom_of_normal {customs : List ChatFolder} (h : ∀ f ∈ customs, f.IsNormal) :
    custom (defaultFolders ++ customs) = customs := by
  rw [custom, List.filter_append, ← custom, custom_defaultFolders, List.nil_append]
  exact List.filter_eq_self.2 fun f hf => by simp [(h f hf).1]

/-- A normal list is read back as it is. -/
theorem validated_of_normal {folders : List ChatFolder} (h : Normal C folders) :
    validated C folders = folders := by
  obtain ⟨customs, rfl, hnormal, hsorted⟩ := h
  have hcanonical : (defaultFolders ++ customs).map ChatFolder.canonical =
      defaultFolders ++ customs := by
    rw [List.map_append, canonical_defaultFolders]
    congr 1
    exact (List.map_congr_left fun f hf => (hnormal f hf).canonical_eq).trans (List.map_id _)
  have hcustom := custom_of_normal hnormal
  have hfilter : custom ((defaultFolders ++ customs).mergeSort fun a b => C.le a.id b.id) =
      customs := by
    rw [custom, StableSort.filter_mergeSort (fun a b c => C.trans a.id b.id c.id)
      (fun a b => C.total a.id b.id), ← custom, hcustom]
    rw [← custom, hcustom]
    exact hsorted
  have hmap : ∀ l : List ChatFolder,
      custom (l.map ChatFolder.normalized) = (custom l).map ChatFolder.normalized := fun l =>
    List.filter_map ..
  rw [validated, hcanonical, hmap, hfilter]
  congr 1
  exact (List.map_congr_left fun f hf => (hnormal f hf).normalized_eq).trans (List.map_id _)

/-! ## Writing and reading -/

open LocalStorage

theorem safe_ne_nil (folders : List ChatFolder) : safe folders ≠ [] := by
  unfold safe
  split_ifs with h
  · simp [defaultFolders]
  · simpa using h

/-- What is read back, where the checksum matches, is `validated`, and the storage is kept;
    else it is the built-in folders. -/
theorem readRaw_writeRaw (folders : List ChatFolder) :
    (writeRaw C folders : LocalStorage N).readRaw C =
        (validated C (safe folders), writeRaw C folders) ∨
      (checksum (canonicalJson C (validated C (safe folders)) : Json N) ≠
          checksum (canonicalJson C (safe folders) : Json N) ∧
        ((writeRaw C folders : LocalStorage N).readRaw C).1 = defaultFolders) := by
  have hall : (validated C (safe folders)).any (·.id = "all") = true := by
    rw [validated, List.any_append]
    rfl
  simp only [readRaw, writeRaw, validateFolders_canonicalJson (safe_ne_nil folders)]
  split_ifs with hmismatch
  · refine .inr ⟨fun heq => ?_, rfl⟩
    rw [heq] at hmismatch
    simp [Option.any_filter] at hmismatch
  · exact .inl rfl

theorem readRaw_of_normal {folders : List ChatFolder} (h : Normal C (safe folders)) :
    (writeRaw C folders : LocalStorage N).readRaw C = (safe folders, writeRaw C folders) := by
  rcases readRaw_writeRaw (N := N) folders with hread | ⟨hne, -⟩
  · rw [hread, validated_of_normal h]
  · rw [validated_of_normal h] at hne
    exact absurd rfl hne

/-- A list comes back as it was written exactly if it is normal. -/
theorem readRaw_writeRaw_iff (folders : List ChatFolder) :
    ((writeRaw C folders : LocalStorage N).readRaw C).1 = safe folders ↔
      Normal C (safe folders) := by
  constructor
  · intro h
    rcases readRaw_writeRaw (N := N) folders with hread | ⟨-, hread⟩
    · rw [hread] at h
      rw [← h]
      exact normal_validated _
    · rw [hread] at h
      rw [← h]
      exact normal_defaultFolders
  · intro h
    rw [readRaw_of_normal h]

/-! ## The operations on a list -/

/-- What an operation writes, given the folders that it reads. -/
def FolderOp.next (folders : List ChatFolder) : FolderOp → Option (List ChatFolder)
  | .create now name => some (created folders now name)
  | .upsert folder => if folder.system then none else some (upserted folders folder)
  | .delete folderId => some (deleted folders folderId)
  | .move folderId direction => moved folders folderId direction
  | .reorder sourceId targetId =>
    if sourceId = targetId then none else reordered folders sourceId targetId
  | .duplicate now folderId => duplicated folders now folderId
  | .reset folderId => some (Folders.reset folders folderId)
  | .save folders => some folders

/-- The folders that an operation produces. -/
def FolderOp.produced (folders : List ChatFolder) (op : FolderOp) : List ChatFolder :=
  ((op.next folders).map safe).getD folders

/-- An operation reads the folders, and writes the next ones. -/
theorem apply_eq {s : LocalStorage N} {folders : List ChatFolder}
    (h : s.readRaw C = (folders, s)) (op : FolderOp) :
    s.apply C op = ((op.next folders).map (writeRaw C)).getD s := by
  cases op with
  | upsert folder =>
    simp only [apply, upsertChatFolder, FolderOp.next, h]
    split_ifs <;> rfl
  | move folderId direction =>
    simp only [apply, moveChatFolder, FolderOp.next, h]
    cases moved folders folderId direction <;> rfl
  | reorder sourceId targetId =>
    simp only [apply, reorderCustomFolders, FolderOp.next, h]
    split_ifs
    · rfl
    · cases reordered folders sourceId targetId <;> rfl
  | duplicate now folderId =>
    simp only [apply, duplicateChatFolder, FolderOp.next, h]
    cases duplicated folders now folderId <;> rfl
  | create now name => simp only [apply, createChatFolder, h]; rfl
  | delete folderId => simp only [apply, deleteChatFolder, h]; rfl
  | reset folderId => simp only [apply, resetChatFolderRules, h]; rfl
  | save folders => rfl

variable (C) in
/-- The ids compare as equal. -/
def Ties (a b : String) : Prop := C.le a b = true ∧ C.le b a = true

variable (C) in
/-- What an operation writes comes back. -/
def FolderOp.Survives (folders : List ChatFolder) : FolderOp → Prop
  | .create _ _ => False
  | .upsert folder => folder.system = true ∨
      (folder.id ∉ defaultFolders.map ChatFolder.id ∧
        (folder.IsNormal ∨ ∀ f ∈ folders, f.id ≠ folder.id))
  | .delete folderId => ∀ f ∈ custom folders, f.id = folderId
  | .move folderId direction => ∀ idx swap, findIdx (custom folders) folderId = some idx →
      direction.swap idx (custom folders).length = some swap →
        ∀ other ∈ (custom folders)[swap]?, Ties C folderId other.id
  | .reorder sourceId targetId => sourceId ≠ targetId →
      (∃ f ∈ custom folders, f.id = sourceId) → (∃ f ∈ custom folders, f.id = targetId) →
        Ties C sourceId targetId
  | .duplicate now folderId => ∀ source ∈ folders.find? (·.id = folderId),
      source.system = false → ∀ f ∈ custom folders, C.le f.id (Folders.folderId now) = true
  | .reset folderId => ∀ f ∈ custom folders, f.id ≠ folderId
  | .save folders => Normal C (safe folders)

/-! ### Each of them on a normal list -/

theorem system_defaultFolders : ∀ f ∈ defaultFolders, f.system = true := by
  simp [defaultFolders, systemFolder, ChatFolder.full, ChatFolder.system]

theorem not_normal_of_custom {folders : List ChatFolder} (h : ∀ f ∈ folders, f.system = false) :
    ¬ Normal C folders := by
  rintro ⟨customs, rfl, -⟩
  have := h (systemFolder "all" "Все" defaultRule) (by simp [defaultFolders])
  simp [systemFolder, ChatFolder.full, ChatFolder.system] at this

section
variable {customs : List ChatFolder}

theorem system_of_normal (hnormal : ∀ f ∈ customs, f.IsNormal) :
    system (defaultFolders ++ customs) = defaultFolders := by
  have hcustoms : system customs = [] :=
    List.filter_eq_nil_iff.2 fun f hf => by simp [(hnormal f hf).1]
  rw [system, List.filter_append, ← system, ← system, hcustoms, List.append_nil]
  rfl

/-- Changing the folders that are not built in, with their ids as they are. -/
theorem normal_map_iff (hsorted : customs.Pairwise fun a b => C.le a.id b.id)
    {g : ChatFolder → ChatFolder} (hid : ∀ f, (g f).id = f.id) :
    Normal C (defaultFolders ++ customs.map g) ↔ ∀ f ∈ customs, (g f).IsNormal := by
  rw [normal_append_iff, List.forall_mem_map, List.pairwise_map]
  simp only [hid, hsorted, and_true]

theorem safe_eq {folders : List ChatFolder} (h : folders ≠ []) : safe folders = folders := by
  rw [safe, if_neg (by simpa using h)]

theorem safe_append (folders : List ChatFolder) :
    safe (defaultFolders ++ folders) = defaultFolders ++ folders :=
  safe_eq (by simp [defaultFolders])

theorem normal_created (now : ℕ) (name : String) :
    ¬ Normal C (safe (created (defaultFolders ++ customs) now name)) := by
  rw [created, List.append_assoc, safe_append, normal_append_iff]
  rintro ⟨hnormal, -⟩
  -- Validation would give it the property `isSystem`.
  have h := congrArg ChatFolder.isSystem (hnormal (newFolder now name) (by simp)).2
  exact absurd h (by simp [newFolder, ChatFolder.normalized, ChatFolder.full])

theorem normal_upserted (hnormal : ∀ f ∈ customs, f.IsNormal)
    (hsorted : customs.Pairwise fun a b => C.le a.id b.id) {folder : ChatFolder}
    (hfolder : folder.system = false) :
    Normal C (safe (upserted (defaultFolders ++ customs) folder)) ↔
      folder.id ∉ defaultFolders.map ChatFolder.id ∧
        (folder.IsNormal ∨ ∀ f ∈ defaultFolders ++ customs, f.id ≠ folder.id) := by
  rw [upserted, List.map_append, safe_eq (by simp [defaultFolders])]
  by_cases hid : folder.id ∈ defaultFolders.map ChatFolder.id
  · -- A built-in folder would be replaced by one that is not.
    refine iff_of_false ?_ fun h => h.1 hid
    rintro ⟨customs', heq, -⟩
    obtain ⟨hdefault, -⟩ := List.append_inj heq (by simp)
    obtain ⟨f, hf, hfid⟩ := List.mem_map.1 hid
    have hmem := List.mem_map_of_mem (f := fun f => if f.id = folder.id then folder else f) hf
    rw [hdefault, if_pos hfid] at hmem
    rw [system_defaultFolders folder hmem] at hfolder
    exact absurd hfolder (by decide)
  · have hne : ∀ f ∈ defaultFolders, f.id ≠ folder.id := fun f hf h =>
      hid (h ▸ List.mem_map_of_mem hf)
    have hdefault : (defaultFolders.map fun f => if f.id = folder.id then folder else f) =
        defaultFolders :=
      (List.map_congr_left fun f hf => if_neg (hne f hf)).trans (List.map_id _)
    rw [hdefault, normal_map_iff hsorted fun f => by split_ifs with h; exacts [h.symm, rfl]]
    constructor
    · intro h
      refine ⟨hid, ?_⟩
      by_cases hex : ∃ f ∈ customs, f.id = folder.id
      · obtain ⟨f, hf, hfid⟩ := hex
        have := h f hf
        rw [if_pos hfid] at this
        exact .inl this
      · refine .inr fun f hf => ?_
        rcases List.mem_append.1 hf with hf | hf
        exacts [hne f hf, fun h => hex ⟨f, hf, h⟩]
    · rintro ⟨-, hupsert⟩ f hf
      split_ifs with h
      · rcases hupsert with hupsert | hupsert
        exacts [hupsert, absurd h (hupsert f (List.mem_append_right _ hf))]
      · exact hnormal f hf

theorem normal_deleted (hnormal : ∀ f ∈ customs, f.IsNormal) (folderId : String) :
    Normal C (safe (deleted (defaultFolders ++ customs) folderId)) ↔
      ∀ f ∈ customs, f.id = folderId := by
  have hnot : ∀ f ∈ deleted (defaultFolders ++ customs) folderId, f.system = false := by
    intro f hf
    have := (List.mem_filter.1 hf).2
    rw [Bool.and_eq_true, Bool.not_eq_true'] at this
    exact this.2
  constructor
  · intro h f hf
    by_contra hne
    have hmem : f ∈ deleted (defaultFolders ++ customs) folderId :=
      List.mem_filter.2 ⟨List.mem_append_right _ hf, by simp [hne, (hnormal f hf).1]⟩
    rw [safe_eq (List.ne_nil_of_mem hmem)] at h
    exact not_normal_of_custom hnot h
  · intro h
    have hnil : deleted (defaultFolders ++ customs) folderId = [] := by
      refine List.filter_eq_nil_iff.2 fun f hf => ?_
      rcases List.mem_append.1 hf with hf | hf
      · simp [system_defaultFolders f hf]
      · simp [h f hf]
    rw [hnil]
    exact normal_defaultFolders

theorem ChatFolder.IsNormal.copy {source : ChatFolder} (h : source.IsNormal) (now : ℕ) :
    (source.copy now).IsNormal := by
  have hsome : source.isSystem = some false :=
    (congrArg ChatFolder.isSystem h.2).symm.trans (congrArg some h.1)
  have horder : source.order = FolderKey.all := (congrArg ChatFolder.order h.2).symm
  have hrule : source.rule.normalized = source.rule := congrArg ChatFolder.rule h.normalized_eq
  have hids : sortedIds source.chatIds = source.chatIds ∧
      sortedIds source.excludedChatIds = source.excludedChatIds :=
    ⟨congrArg ChatFolder.chatIds h.canonical_eq,
      congrArg ChatFolder.excludedChatIds h.canonical_eq⟩
  have hsystem : source.withSystem false = source := by
    rw [ChatFolder.withSystem]
    cases source
    simp_all [FolderKey.all]
  refine ⟨rfl, ?_⟩
  rw [ChatFolder.copy, hsystem]
  cases source
  simp_all [ChatFolder.normalized, ChatFolder.canonical, ChatFolder.full, ChatFolder.system]

theorem normal_duplicated (hnormal : ∀ f ∈ customs, f.IsNormal)
    (hsorted : customs.Pairwise fun a b => C.le a.id b.id) {source : ChatFolder}
    (hsource : source ∈ customs) (now : ℕ) :
    Normal C (safe (defaultFolders ++ customs ++ [source.copy now])) ↔
      ∀ f ∈ customs, C.le f.id (folderId now) = true := by
  rw [List.append_assoc, safe_append, normal_append_iff, List.pairwise_append]
  constructor
  · exact fun h f hf => h.2.2.2 f hf _ (List.mem_singleton_self _)
  · refine fun h => ⟨fun f hf => ?_, hsorted, List.pairwise_singleton _ _, fun f hf g hg => ?_⟩
    · rcases List.mem_append.1 hf with hf | hf
      exacts [hnormal f hf, List.mem_singleton.1 hf ▸ (hnormal source hsource).copy now]
    · exact List.mem_singleton.1 hg ▸ h f hf

theorem findIdx_eq_some {folders : List ChatFolder} {id : String} {idx : ℕ}
    (h : findIdx folders id = some idx) : ∃ f, folders[idx]? = some f ∧ f.id = id := by
  obtain ⟨hlt, hid, -⟩ := List.findIdx?_eq_some_iff_getElem.1 h
  exact ⟨folders[idx], List.getElem?_eq_getElem hlt, by simpa using hid⟩

theorem findIdx_isSome {folders : List ChatFolder} {id : String} :
    (findIdx folders id).isSome = true ↔ ∃ f ∈ folders, f.id = id := by
  simp [findIdx, List.findIdx?_isSome]

/-- The folders in another order. -/
theorem normal_perm_iff (hnormal : ∀ f ∈ customs, f.IsNormal) {next : List ChatFolder}
    (hperm : next.Perm customs) :
    Normal C (safe (defaultFolders ++ next)) ↔ next.Pairwise fun a b => C.le a.id b.id := by
  rw [safe_append, normal_append_iff]
  exact and_iff_right fun f hf => hnormal f (hperm.mem_iff.1 hf)

theorem normal_forward (hnormal : ∀ f ∈ customs, f.IsNormal)
    (hsorted : customs.Pairwise fun a b => C.le a.id b.id) {pre mid post : List ChatFolder}
    {x y : ChatFolder} (hcustoms : customs = pre ++ x :: (mid ++ y :: post)) :
    Normal C (safe (defaultFolders ++ (pre ++ (mid ++ y :: x :: post)))) ↔ Ties C x.id y.id := by
  subst hcustoms
  have hxy : C.le x.id y.id = true :=
    (List.pairwise_cons.1 (List.pairwise_append.1 hsorted).2.1).1 y (by simp)
  have hforward : ((pre ++ (mid ++ y :: x :: post)).Pairwise fun a b => C.le a.id b.id) ↔
      C.le y.id x.id = true :=
    StableSort.pairwise_forward_iff (fun a b c => C.trans a.id b.id c.id) hsorted
  have hperm : (pre ++ (mid ++ y :: x :: post)).Perm (pre ++ x :: (mid ++ y :: post)) := by
    refine .append_left _ ?_
    have hmid : (mid ++ y :: x :: post).Perm (y :: x :: (mid ++ post)) :=
      List.perm_append_comm_assoc mid [y, x] post
    exact hmid.trans ((List.Perm.swap ..).trans (.cons x List.perm_middle.symm))
  rw [normal_perm_iff hnormal hperm, hforward]
  exact (and_iff_right hxy).symm

theorem normal_backward (hnormal : ∀ f ∈ customs, f.IsNormal)
    (hsorted : customs.Pairwise fun a b => C.le a.id b.id) {pre mid post : List ChatFolder}
    {x y : ChatFolder} (hcustoms : customs = pre ++ y :: (mid ++ x :: post)) :
    Normal C (safe (defaultFolders ++ (pre ++ x :: y :: (mid ++ post)))) ↔ Ties C x.id y.id := by
  subst hcustoms
  have hyx : C.le y.id x.id = true :=
    (List.pairwise_cons.1 (List.pairwise_append.1 hsorted).2.1).1 x (by simp)
  have hbackward : ((pre ++ x :: y :: (mid ++ post)).Pairwise fun a b => C.le a.id b.id) ↔
      C.le x.id y.id = true :=
    StableSort.pairwise_backward_iff (fun a b c => C.trans a.id b.id c.id) hsorted
  have hperm : (pre ++ x :: y :: (mid ++ post)).Perm (pre ++ y :: (mid ++ x :: post)) := by
    refine .append_left _ ((List.Perm.swap ..).trans (.cons y ?_))
    exact List.perm_middle.symm
  rw [normal_perm_iff hnormal hperm, hbackward]
  exact (and_iff_left hyx).symm

theorem moved_eq {idx swap : ℕ} {folderId : String} {direction : Direction}
    {tmp other : ChatFolder} (hnormal : ∀ f ∈ customs, f.IsNormal)
    (hidx : findIdx customs folderId = some idx)
    (hswap : direction.swap idx customs.length = some swap) (htmp : customs[idx]? = some tmp)
    (hother : customs[swap]? = some other) :
    moved (defaultFolders ++ customs) folderId direction =
      some (defaultFolders ++ (customs.set idx other).set swap tmp) := by
  simp [moved, custom_of_normal hnormal, system_of_normal hnormal, hidx, hswap, htmp, hother]

theorem normal_moved (hnormal : ∀ f ∈ customs, f.IsNormal)
    (hsorted : customs.Pairwise fun a b => C.le a.id b.id) {idx swap : ℕ}
    {direction : Direction} {tmp other : ChatFolder}
    (hswap : direction.swap idx customs.length = some swap) (htmp : customs[idx]? = some tmp)
    (hother : customs[swap]? = some other) :
    Normal C (safe (defaultFolders ++ (customs.set idx other).set swap tmp)) ↔
      Ties C tmp.id other.id := by
  cases direction with
  | left =>
    have hidx : swap + 1 = idx := by
      simp only [Direction.swap] at hswap
      split_ifs at hswap with h
      cases hswap
      omega
    obtain ⟨pre, mid, post, hcustoms, hpre, hmid⟩ :=
      StableSort.split_getElem?_getElem? (by omega) hother htmp
    obtain rfl : mid = [] := List.length_eq_zero_iff.1 (by omega)
    rw [← normal_backward hnormal hsorted hcustoms, hcustoms, ← hidx, ← hpre]
    simp
  | right =>
    have hidx : idx + 1 = swap := by
      simp only [Direction.swap] at hswap
      split_ifs at hswap with h
      exact Option.some.inj hswap
    obtain ⟨pre, mid, post, hcustoms, hpre, hmid⟩ :=
      StableSort.split_getElem?_getElem? (by omega) htmp hother
    obtain rfl : mid = [] := List.length_eq_zero_iff.1 (by omega)
    rw [← normal_forward hnormal hsorted hcustoms, hcustoms, ← hidx, ← hpre]
    simp

theorem normal_reordered (hnormal : ∀ f ∈ customs, f.IsNormal)
    (hsorted : customs.Pairwise fun a b => C.le a.id b.id) {s t : ℕ} {source target : ChatFolder}
    (hsource : customs[s]? = some source) (htarget : customs[t]? = some target)
    (hne : source.id ≠ target.id) :
    Normal C (safe (defaultFolders ++ ((customs.eraseIdx s).take t ++
        source :: (customs.eraseIdx s).drop t))) ↔ Ties C source.id target.id := by
  rcases Nat.lt_trichotomy s t with h | rfl | h
  · obtain ⟨pre, mid, post, hcustoms, hpre, hmid⟩ :=
      StableSort.split_getElem?_getElem? h hsource htarget
    rw [← normal_forward hnormal hsorted hcustoms, hcustoms, ← hmid, ← hpre]
    have herase : (pre ++ source :: (mid ++ target :: post)).eraseIdx pre.length =
        (pre ++ (mid ++ [target])) ++ post := by
      simp [List.eraseIdx_append]
    have hlength : pre.length + 1 + mid.length = (pre ++ (mid ++ [target])).length := by
      simp
      omega
    rw [herase, hlength, List.take_left, List.drop_left]
    simp
  · rw [hsource] at htarget
    cases htarget
    exact absurd rfl hne
  · obtain ⟨pre, mid, post, hcustoms, hpre, hmid⟩ :=
      StableSort.split_getElem?_getElem? h htarget hsource
    rw [← normal_backward hnormal hsorted hcustoms, hcustoms, ← hmid, ← hpre]
    have herase : (pre ++ target :: (mid ++ source :: post)).eraseIdx
        (pre.length + 1 + mid.length) = pre ++ target :: (mid ++ post) := by
      have hindex : pre.length + 1 + mid.length - pre.length = mid.length + 1 := by omega
      rw [List.eraseIdx_append_of_length_le (by omega), hindex, List.eraseIdx_cons_succ,
        List.eraseIdx_append_of_length_le (Nat.le_refl _), Nat.sub_self]
      rfl
    rw [herase, List.take_left, List.drop_left]

theorem not_isNormal_reset (f : ChatFolder) :
    ¬ ChatFolder.IsNormal { f with rule := resetRule } := by
  intro h
  -- The last properties of the rule stand in another order.
  have hkeys : RuleKey.all = resetRule.props.keys := congrArg (fun f => f.rule.props.keys) h.2
  exact absurd hkeys (by decide)

theorem normal_reset (hnormal : ∀ f ∈ customs, f.IsNormal)
    (hsorted : customs.Pairwise fun a b => C.le a.id b.id) (folderId : String) :
    Normal C (safe (reset (defaultFolders ++ customs) folderId)) ↔
      ∀ f ∈ customs, f.id ≠ folderId := by
  have hdefault : reset defaultFolders folderId = defaultFolders :=
    (List.map_congr_left fun f hf => if_pos (by simp [system_defaultFolders f hf])).trans
      (List.map_id _)
  rw [reset, List.map_append, ← reset, hdefault, safe_append,
    normal_map_iff hsorted fun f => by split_ifs <;> rfl]
  refine forall₂_congr fun f hf => ?_
  simp only [(hnormal f hf).1, Bool.or_false, decide_eq_true_eq]
  split_ifs with h
  · exact iff_of_true (hnormal f hf) h
  · exact iff_of_false (not_isNormal_reset f) h

end

section
variable {customs : List ChatFolder} (hnormal : ∀ f ∈ customs, f.IsNormal)
  (hsorted : customs.Pairwise fun a b => C.le a.id b.id)
include hnormal hsorted

theorem normal_move_iff (folderId : String) (direction : Direction) :
    Normal C ((FolderOp.move folderId direction).produced (defaultFolders ++ customs)) ↔
      (FolderOp.move folderId direction).Survives C (defaultFolders ++ customs) := by
  have hsame : Normal C (defaultFolders ++ customs) := normal_append_iff.2 ⟨hnormal, hsorted⟩
  have hcustom := custom_of_normal hnormal
  rw [FolderOp.produced, FolderOp.next, FolderOp.Survives, hcustom]
  cases hidx : findIdx customs folderId with
  | none => simpa [moved, hcustom, hidx] using hsame
  | some idx =>
    obtain ⟨tmp, htmp, hid⟩ := findIdx_eq_some hidx
    cases hswap : direction.swap idx customs.length with
    | none =>
      refine iff_of_true ?_ fun idx' swap h h' => ?_
      · simpa [moved, hcustom, hidx, hswap] using hsame
      · cases h
        rw [hswap] at h'
        cases h'
    | some swap =>
      have hlt : swap < customs.length := by
        have := (List.getElem?_eq_some_iff.1 htmp).1
        cases direction <;> simp only [Direction.swap] at hswap <;> split_ifs at hswap <;>
          cases hswap <;> omega
      have hother := List.getElem?_eq_getElem hlt
      rw [moved_eq hnormal hidx hswap htmp hother, Option.map_some, Option.getD_some,
        normal_moved hnormal hsorted hswap htmp hother, hid]
      constructor
      · intro h idx' swap' hidx' hswap' other hmem
        cases hidx'
        rw [hswap] at hswap'
        cases hswap'
        rw [hother] at hmem
        cases hmem
        exact h
      · exact fun h => h idx swap rfl hswap _ hother

theorem normal_reorder_iff (sourceId targetId : String) :
    Normal C ((FolderOp.reorder sourceId targetId).produced (defaultFolders ++ customs)) ↔
      (FolderOp.reorder sourceId targetId).Survives C (defaultFolders ++ customs) := by
  have hsame : Normal C (defaultFolders ++ customs) := normal_append_iff.2 ⟨hnormal, hsorted⟩
  have hcustom := custom_of_normal hnormal
  rw [FolderOp.produced, FolderOp.next, FolderOp.Survives, hcustom, ← findIdx_isSome,
    ← findIdx_isSome]
  by_cases hne : sourceId = targetId
  · exact iff_of_true (by simpa [hne] using hsame) fun h => absurd hne h
  · rw [if_neg hne]
    cases hs : findIdx customs sourceId with
    | none => simpa [reordered, hcustom, hs] using hsame
    | some s =>
      cases ht : findIdx customs targetId with
      | none => simpa [reordered, hcustom, hs, ht] using hsame
      | some t =>
        obtain ⟨source, hsource, hsid⟩ := findIdx_eq_some hs
        obtain ⟨target, htarget, htid⟩ := findIdx_eq_some ht
        have hreordered : reordered (defaultFolders ++ customs) sourceId targetId =
            some (defaultFolders ++ ((customs.eraseIdx s).take t ++
              source :: (customs.eraseIdx s).drop t)) := by
          simp [reordered, hcustom, system_of_normal hnormal, hs, ht, hsource]
        rw [hreordered, Option.map_some, Option.getD_some, normal_reordered hnormal hsorted
          hsource htarget (by rwa [hsid, htid]), hsid, htid]
        simp [hne]

theorem normal_duplicate_iff (now : ℕ) (folderId : String) :
    Normal C ((FolderOp.duplicate now folderId).produced (defaultFolders ++ customs)) ↔
      (FolderOp.duplicate now folderId).Survives C (defaultFolders ++ customs) := by
  have hsame : Normal C (defaultFolders ++ customs) := normal_append_iff.2 ⟨hnormal, hsorted⟩
  rw [FolderOp.produced, FolderOp.next, FolderOp.Survives, duplicated,
    custom_of_normal hnormal]
  cases hfind : (defaultFolders ++ customs).find? fun f => f.id = folderId with
  | none => simpa using hsame
  | some source =>
    cases hsystem : source.system with
    | true => simpa [hsystem] using hsame
    | false =>
      have hsource : source ∈ customs := by
        rcases List.mem_append.1 (List.mem_of_find?_eq_some hfind) with h | h
        · rw [system_defaultFolders source h] at hsystem
          exact absurd hsystem (by decide)
        · exact h
      have hproduced := normal_duplicated hnormal hsorted hsource now
      simpa [hsystem] using hproduced

end

/-- What an operation produces from a normal list is normal exactly if it survives. -/
theorem normal_produced_iff {folders : List ChatFolder} (h : Normal C folders) (op : FolderOp) :
    Normal C (op.produced folders) ↔ op.Survives C folders := by
  obtain ⟨customs, rfl, hnormal, hsorted⟩ := h
  have hcustom := custom_of_normal hnormal
  cases op with
  | create now name => exact iff_of_false (normal_created now name) id
  | upsert folder =>
    rw [FolderOp.produced, FolderOp.next, FolderOp.Survives]
    cases hfolder : folder.system with
    | true => exact iff_of_true (normal_append_iff.2 ⟨hnormal, hsorted⟩) (.inl rfl)
    | false => simpa using normal_upserted hnormal hsorted hfolder
  | delete folderId =>
    rw [FolderOp.Survives, hcustom]
    exact normal_deleted hnormal folderId
  | move folderId direction => exact normal_move_iff hnormal hsorted folderId direction
  | reorder sourceId targetId => exact normal_reorder_iff hnormal hsorted sourceId targetId
  | duplicate now folderId => exact normal_duplicate_iff hnormal hsorted now folderId
  | reset folderId =>
    rw [FolderOp.Survives, hcustom]
    exact normal_reset hnormal hsorted folderId
  | save folders => exact Iff.rfl

/-! ## Sequences of operations -/

variable (C) in
/-- After each of the operations, `loadChatFolders` returns the folders that they produced. -/
def Reloads (s : LocalStorage N) (folders : List ChatFolder) : List FolderOp → Prop
  | [] => True
  | op :: ops =>
    ((s.apply C op).loadChatFolders C).1 = op.produced folders ∧
      Reloads (s.apply C op) (op.produced folders) ops

variable (C) in
/-- Each of the operations survives, on the folders that those before it produced. -/
def AllSurvive (folders : List ChatFolder) : List FolderOp → Prop
  | [] => True
  | op :: ops => op.Survives C folders ∧ AllSurvive (op.produced folders) ops

/-- What one operation does to storage that holds the folders. -/
theorem loadChatFolders_apply_iff {s : LocalStorage N} {folders : List ChatFolder}
    (hs : s.readRaw C = (folders, s)) (hfolders : Normal C folders) (op : FolderOp) :
    ((s.apply C op).loadChatFolders C).1 = op.produced folders ↔ op.Survives C folders := by
  rw [← normal_produced_iff hfolders, apply_eq hs, loadChatFolders, FolderOp.produced]
  cases op.next folders with
  | none => exact iff_of_true (congrArg Prod.fst hs) hfolders
  | some next => exact readRaw_writeRaw_iff next

/-- Storage that holds the folders holds what a surviving operation produces. -/
theorem readRaw_apply {s : LocalStorage N} {folders : List ChatFolder}
    (hs : s.readRaw C = (folders, s)) (hfolders : Normal C folders) {op : FolderOp}
    (hop : op.Survives C folders) :
    (s.apply C op).readRaw C = (op.produced folders, s.apply C op) := by
  have hproduced := (normal_produced_iff hfolders op).2 hop
  rw [FolderOp.produced] at hproduced ⊢
  rw [apply_eq hs]
  cases hnext : op.next folders with
  | none => exact hs
  | some next =>
    rw [hnext] at hproduced
    exact readRaw_of_normal hproduced

theorem reloads_iff_of_normal {s : LocalStorage N} {folders : List ChatFolder}
    (hs : s.readRaw C = (folders, s)) (hfolders : Normal C folders) (ops : List FolderOp) :
    Reloads C s folders ops ↔ AllSurvive C folders ops := by
  induction ops generalizing s folders with
  | nil => exact Iff.rfl
  | cons op ops ih =>
    rw [Reloads, AllSurvive, loadChatFolders_apply_iff hs hfolders]
    exact and_congr_right fun hop =>
      ih (readRaw_apply hs hfolders hop) ((normal_produced_iff hfolders op).2 hop)

/-- From empty storage on, every load returns what the operations produced exactly if each of
    them survives. -/
theorem reloads_iff (C : Collation) (ops : List FolderOp) :
    Reloads C (LocalStorage.empty : LocalStorage N) defaultFolders ops ↔
      AllSurvive C defaultFolders ops :=
  reloads_iff_of_normal rfl normal_defaultFolders ops

/-- Ids in the order of their code units. -/
def byCodeUnits : Collation where
  le a b := unitsLe (codeUnits a) (codeUnits b)
  trans _ _ _ := unitsLe_trans _ _ _
  total _ _ := unitsLe_total _ _

/-- A folder with all its properties. -/
def chosen (id : String) : ChatFolder := .full id "Работа" false ["chat"] [] (.full fun _ => true)

/-- A created folder is not there after a reload, nor is the order after a move. -/
theorem not_reloads :
    ¬ Reloads byCodeUnits (LocalStorage.empty : LocalStorage ℕ) defaultFolders
        [.create 1750000000000 "Работа"] ∧
      ¬ Reloads byCodeUnits (LocalStorage.empty : LocalStorage ℕ) defaultFolders
        [.save (defaultFolders ++ [chosen "folder_a", chosen "folder_b"]),
          .move "folder_a" .right] := by
  constructor
  · rw [reloads_iff_of_normal rfl normal_defaultFolders]
    exact fun h => h.1
  · rw [reloads_iff_of_normal rfl normal_defaultFolders]
    rintro ⟨-, hmove, -⟩
    have hties : Ties byCodeUnits "folder_a" "folder_b" :=
      hmove 0 1 (by rfl) (by rfl) (chosen "folder_b") (by rfl)
    exact absurd hties.2 (by decide)

end OneToThree.Folders
