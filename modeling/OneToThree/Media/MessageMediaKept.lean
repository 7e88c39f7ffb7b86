import OneToThree.Media.MessageMedia

/-!
# What messages use stays in the store

As long as every message is sent with objects of its own, and no job fails half-way, what one
message uses is deleted by no other. The invariant is that what the clean-up of a message would
delete is used by no other message, and that every job in flight has selected only such objects
(`State.Sound`, `State.Ready`). Every statement of a job keeps it (`State.Passes`).
-/

namespace OneToThree.MessageMedia

/-! ## What uses an object -/

namespace State

variable {s s' s'' : State} {id id' : MessageId} {key : Key} {t u : Task} {i : ℕ}

theorem path_eq_some {path : Path} :
    s.path id = some path ↔ ∃ x, s.messages id = some x ∧ x.mediaPath = some path :=
  Option.bind_eq_some_iff

theorem live_iff : s.live id key = true ↔
    ∃ a, s.attachments key = some a ∧ a.messageId = some id ∧ a.evicted = false := by
  simp [live, Option.any_eq_true]

theorem links_iff :
    s.links id key = true ↔ ∃ a, s.attachments key = some a ∧ a.messageId = some id := by
  simp [links, Option.any_eq_true]

theorem uses_iff :
    s.uses id key = true ↔ s.path id = some ⟨key, 0⟩ ∨ s.live id key = true := by
  simp [uses]

theorem names_iff : s.names id key = true ↔
    (∃ path, s.path id = some path ∧ path.key = key) ∨ s.links id key = true := by
  simp [names, Option.any_eq_true]

theorem links_of_live (h : s.live id key = true) : s.links id key = true := by
  obtain ⟨a, ha, hid, -⟩ := live_iff.1 h
  exact links_iff.2 ⟨a, ha, hid⟩

theorem names_of_uses (h : s.uses id key = true) : s.names id key = true :=
  names_iff.2 ((uses_iff.1 h).imp (fun hp => ⟨_, hp, rfl⟩) links_of_live)

theorem isSelected_iff : s.isSelected key = true ↔ s.tasks.Some fun t => key ∈ t.selects := by
  simp [isSelected, Tasks.any_iff]

theorem isTaken_iff : s.isTaken id = true ↔ s.tasks.Some fun t => s.takes t id = true :=
  Tasks.any_iff

/-- What statements leave that only delete and clear. A row loses its message with the message. -/
structure Sheds (s s' : State) : Prop where
  next : s'.nextMessage = s.nextMessage
  drawn : s'.drawn = s.drawn
  message : ∀ id x', s'.messages id = some x' → ∃ x, s.messages id = some x ∧
    x'.chatId = x.chatId ∧ (x'.mediaPath = none ∨ x'.mediaPath = x.mediaPath)
  row : ∀ key a', s'.attachments key = some a' → ∃ a, s.attachments key = some a ∧
    a'.chatId = a.chatId ∧ (a'.evicted = false → a.evicted = false) ∧
      ∀ id, a'.messageId = some id → a.messageId = some id
  linked : ∀ key a a' id, s.attachments key = some a → s'.attachments key = some a' →
    a.messageId = some id → (s.messages id).isSome →
      (a'.messageId = some id ↔ (s'.messages id).isSome)

namespace Sheds

theorem of_eq (hm : s'.messages = s.messages) (hn : s'.nextMessage = s.nextMessage)
    (ha : s'.attachments = s.attachments) (hd : s'.drawn = s.drawn) : Sheds s s' where
  next := hn
  drawn := hd
  message id x hx := ⟨x, hm ▸ hx, rfl, .inr rfl⟩
  row key a hrow := ⟨a, ha ▸ hrow, rfl, id, fun _ => id⟩
  linked key a a' id hrow hrow' hid hx := by
    obtain rfl := Option.some.inj (hrow.symm.trans (ha ▸ hrow'))
    exact iff_of_true hid (hm ▸ hx)

theorem trans (h : Sheds s s') (h' : Sheds s' s'') : Sheds s s'' where
  next := h'.next.trans h.next
  drawn := h'.drawn.trans h.drawn
  message id x'' hx'' := by
    obtain ⟨x', hx', hchat', hpath'⟩ := h'.message id x'' hx''
    obtain ⟨x, hx, hchat, hpath⟩ := h.message id x' hx'
    refine ⟨x, hx, hchat'.trans hchat, hpath'.elim .inl fun he => ?_⟩
    exact hpath.imp he.trans he.trans
  row key a'' ha'' := by
    obtain ⟨a', ha', hchat', hev', hid'⟩ := h'.row key a'' ha''
    obtain ⟨a, ha, hchat, hev, hid⟩ := h.row key a' ha'
    exact ⟨a, ha, hchat'.trans hchat, fun he => hev (hev' he), fun id he => hid id (hid' id he)⟩
  linked key a a'' id ha ha'' hid hx := by
    obtain ⟨a', ha', -, -, hback⟩ := h'.row key a'' ha''
    have hiff := h.linked key a a' id ha ha' hid hx
    by_cases hx' : (s'.messages id).isSome
    · exact h'.linked key a' a'' id ha' ha'' (hiff.2 hx') hx'
    · refine iff_of_false (fun he => hx' (hiff.1 (hback id he))) fun hx'' => hx' ?_
      obtain ⟨x'', hx''⟩ := Option.isSome_iff_exists.1 hx''
      obtain ⟨x', hx', -⟩ := h'.message id x'' hx''
      exact Option.isSome_iff_exists.2 ⟨x', hx'⟩

theorem path (h : Sheds s s') {path : Path} (hp : s'.path id = some path) :
    s.path id = some path := by
  obtain ⟨x', hx', hp⟩ := path_eq_some.1 hp
  obtain ⟨x, hx, -, hnone | hsame⟩ := h.message id x' hx'
  · exact absurd (hp.symm.trans hnone) (Option.some_ne_none _)
  · exact path_eq_some.2 ⟨x, hx, hsame.symm.trans hp⟩

theorem links (h : Sheds s s') (hl : s'.links id key = true) : s.links id key = true := by
  obtain ⟨a', ha', hid⟩ := links_iff.1 hl
  obtain ⟨a, ha, -, -, hback⟩ := h.row key a' ha'
  exact links_iff.2 ⟨a, ha, hback id hid⟩

theorem live (h : Sheds s s') (hl : s'.live id key = true) : s.live id key = true := by
  obtain ⟨a', ha', hid, hev⟩ := live_iff.1 hl
  obtain ⟨a, ha, -, hlive, hback⟩ := h.row key a' ha'
  exact live_iff.2 ⟨a, ha, hback id hid, hlive hev⟩

theorem uses (h : Sheds s s') (hu : s'.uses id key = true) : s.uses id key = true :=
  uses_iff.2 ((uses_iff.1 hu).imp h.path h.live)

theorem names (h : Sheds s s') (hn : s'.names id key = true) : s.names id key = true := by
  rw [names_iff] at hn ⊢
  refine hn.imp ?_ h.links
  rintro ⟨path, hp, hkey⟩
  exact ⟨path, h.path hp, hkey⟩

end Sheds

theorem sheds_deleteMessages (s : State) (gone : MessageId → Bool) :
    Sheds s (s.deleteMessages gone) where
  next := rfl
  drawn := rfl
  message id x hx := by
    rw [deleteMessages] at hx
    dsimp only at hx
    split_ifs at hx
    exact ⟨x, hx, rfl, .inr rfl⟩
  row key a' ha' := by
    obtain ⟨a, ha, rfl⟩ := Option.map_eq_some_iff.1 ha'
    exact ⟨a, ha, rfl, id, fun i hi => (Option.filter_eq_some_iff.1 hi).1⟩
  linked key a a' id ha ha' hid hx := by
    obtain ⟨b, hb, rfl⟩ := Option.map_eq_some_iff.1 ha'
    obtain rfl := Option.some.inj (ha.symm.trans hb)
    simp only [deleteMessages, hid]
    cases hgone : gone id <;> simp [hgone, hx]

theorem sheds_deleteChat (s : State) (chat : ChatId) : Sheds s (s.deleteChat chat) := by
  refine (sheds_deleteMessages s (s.isIn chat)).trans ?_
  -- The rows of the other chats stay as they are.
  have hrow : ∀ key a, (s.deleteChat chat).attachments key = some a →
      (s.deleteMessages (s.isIn chat)).attachments key = some a :=
    fun key a ha => (Option.filter_eq_some_iff.1 ha).1
  refine ⟨rfl, rfl, fun id x hx => ⟨x, hx, rfl, .inr rfl⟩,
    fun key a ha => ⟨a, hrow key a ha, rfl, id, fun _ => id⟩, fun key a a' id ha ha' hid hx => ?_⟩
  obtain rfl := Option.some.inj (ha.symm.trans (hrow key a' ha'))
  exact iff_of_true hid hx

theorem sheds_evict (s : State) (key : Key) : Sheds s (s.evict key) := by
  have hrow : ∀ k a', (s.evict key).attachments k = some a' → ∃ a, s.attachments k = some a ∧
      a'.chatId = a.chatId ∧ (a'.evicted = false → a.evicted = false) ∧
        a'.messageId = a.messageId := by
    intro k a' ha'
    rw [evict] at ha'
    dsimp only at ha'
    split_ifs at ha'
    · obtain ⟨a, ha, rfl⟩ := Option.map_eq_some_iff.1 ha'
      exact ⟨a, ha, rfl, fun h => absurd h (by simp), rfl⟩
    · exact ⟨a', ha', rfl, id, rfl⟩
  refine ⟨rfl, rfl, fun id x hx => ⟨x, hx, rfl, .inr rfl⟩, fun k a' ha' => ?_,
    fun k a a' id ha ha' hid hx => ?_⟩
  · obtain ⟨a, ha, hchat, hev, hsame⟩ := hrow k a' ha'
    exact ⟨a, ha, hchat, hev, fun id hid => hsame ▸ hid⟩
  · obtain ⟨b, hb, -, -, hsame⟩ := hrow k a' ha'
    obtain rfl := Option.some.inj (ha.symm.trans hb)
    exact iff_of_true (hsame.trans hid) hx

theorem sheds_clearPath (s : State) (id : MessageId) : Sheds s (s.clearPath id) := by
  have hmessage : ∀ i, ((s.clearPath id).messages i).isSome = (s.messages i).isSome := by
    intro i
    rw [clearPath]
    dsimp only
    split_ifs
    · exact Option.isSome_map
    · rfl
  refine ⟨rfl, rfl, fun i x' hx' => ?_, fun k a ha => ⟨a, ha, rfl, (·), fun _ => (·)⟩,
    fun k a a' i ha ha' hi hx => ?_⟩
  · rw [clearPath] at hx'
    dsimp only at hx'
    split_ifs at hx'
    · obtain ⟨x, hx, rfl⟩ := Option.map_eq_some_iff.1 hx'
      exact ⟨x, hx, rfl, .inl rfl⟩
    · exact ⟨x', hx', rfl, .inr rfl⟩
  · obtain rfl := Option.some.inj (ha.symm.trans ha')
    exact iff_of_true hi (hmessage i ▸ hx)

theorem sheds_deleteRow (s : State) (key : Key) : Sheds s (s.deleteRow key) := by
  have hrow : ∀ k a, (s.deleteRow key).attachments k = some a → s.attachments k = some a := by
    intro k a ha
    rw [deleteRow] at ha
    dsimp only at ha
    split_ifs at ha
    exact ha
  refine ⟨rfl, rfl, fun id x hx => ⟨x, hx, rfl, .inr rfl⟩,
    fun k a ha => ⟨a, hrow k a ha, rfl, id, fun _ => id⟩, fun k a a' id ha ha' hid hx => ?_⟩
  obtain rfl := Option.some.inj (ha.symm.trans (hrow k a' ha'))
  exact iff_of_true hid hx

/-! ## What holds all along -/

/-- No other message uses the object. -/
def Only (s : State) (id : MessageId) (key : Key) : Prop := ∀ id', s.uses id' key = true → id' = id

/-- What is left of a batch of the purge. -/
def Batch (s : State) (rest : List (MessageId × Path)) : Prop :=
  ∀ x ∈ rest, x.1 < s.nextMessage ∧ s.Only x.1 x.2.key

/-- What a job in flight may rely on: what it goes on to delete is of its own messages only, or of
    messages that are about to go. -/
def Ready (s : State) : Task → Prop
  | .messagePath id keys => ∀ key ∈ keys, s.Only id key
  | .chatPaths chat keys => ∀ key ∈ keys, key.chatId = chat
  | .deleteAllInBackground keys => ∀ key ∈ keys, ∀ id, s.uses id key = true → s.isTaken id = true
  | .purgePath _ _ id key rest => id < s.nextMessage ∧ s.Only id key ∧ s.Batch rest
  | .purgeAttachments _ _ id _ rest => id < s.nextMessage ∧ s.Batch rest
  | .purgeAttachment _ _ id _ current keys rest => id < s.nextMessage ∧
    (∀ k ∈ current :: keys, s.Only id k) ∧ (∀ k, s.live id k = true → k ∈ current :: keys) ∧
      s.Batch rest
  | .purgeEvict _ _ id _ current keys rest => id < s.nextMessage ∧
    (∀ k ∈ keys, s.Only id k) ∧ (∀ k, s.live id k = true → k ∈ current :: keys) ∧ s.Batch rest
  | .purgeClear _ _ id rest =>
    id < s.nextMessage ∧ (∀ k, s.live id k = false) ∧ s.Batch rest
  | .orphanObject _ _ key rest => ∀ k ∈ key :: rest, ∀ id, s.uses id k = false
  | .orphanRow _ _ _ rest => ∀ k ∈ rest, ∀ id, s.uses id k = false
  | _ => True

structure Sound (s : State) : Prop where
  fresh : ∀ id, s.nextMessage ≤ id → s.messages id = none
  drawn : ∀ key a, s.attachments key = some a → key ∈ s.drawn ∧ a.chatId = key.chatId
  owned : ∀ id key, s.names id key = true → ∃ x, s.messages id = some x ∧ x.chatId = key.chatId
  /-- What one message uses, the clean-up of no other message deletes. -/
  apart : ∀ id id' key, s.names id key = true → s.uses id' key = true → id = id'
  /-- The row of an object that is named by a path is linked. -/
  linked : ∀ id key a, s.path id = some ⟨key, 0⟩ → s.attachments key = some a →
    a.messageId = some id
  tasks : s.tasks.Every s.Ready

theorem Only.imp (h : s.Only id key) (hu : ∀ id', s'.uses id' key = true → s.uses id' key = true) :
    s'.Only id key :=
  fun id' hid' => h id' (hu id' hid')

theorem Batch.imp {rest : List (MessageId × Path)} (h : s.Batch rest)
    (hn : s.nextMessage ≤ s'.nextMessage)
    (hu : ∀ k ∈ rest.map (·.2.key), ∀ id, s'.uses id k = true → s.uses id k = true) :
    s'.Batch rest :=
  fun x hx => ⟨Nat.lt_of_lt_of_le (h x hx).1 hn, (h x hx).2.imp (hu _ (List.mem_map_of_mem hx))⟩

/-- A job goes on to be ready as long as nothing new uses what it has selected. -/
theorem Ready.imp (h : s.Ready t) (hn : s.nextMessage ≤ s'.nextMessage)
    (hu : ∀ k ∈ t.selects, ∀ id, s'.uses id k = true → s.uses id k = true)
    (hl : ∀ id < s.nextMessage, ∀ k, s'.live id k = true → s.live id k = true)
    (ht : ∀ id k, s'.uses id k = true → s.isTaken id = true → s'.isTaken id = true) :
    s'.Ready t := by
  have hunused : ∀ {keys : List Key}, (∀ k ∈ keys, k ∈ t.selects) →
      (∀ k ∈ keys, ∀ id, s.uses id k = false) → ∀ k ∈ keys, ∀ id, s'.uses id k = false := by
    intro keys hsub hnone k hk id
    by_contra huses
    have := hu k (hsub k hk) id (eq_true_of_ne_false huses)
    exact absurd ((hnone k hk id).symm.trans this) (by simp)
  cases t with
  | messagePath id keys => exact fun key hkey => (h key hkey).imp (hu key hkey)
  | chatPaths chat keys => exact h
  | deleteAllInBackground keys =>
    exact fun key hkey id huses => ht id key huses (h key hkey id (hu key hkey id huses))
  | purgePath cutoff limit id key rest =>
    obtain ⟨hid, honly, hrest⟩ := h
    exact ⟨Nat.lt_of_lt_of_le hid hn, honly.imp (hu key List.mem_cons_self),
      hrest.imp hn fun k hk => hu k (List.mem_cons_of_mem _ hk)⟩
  | purgeAttachments cutoff limit id key rest => exact ⟨Nat.lt_of_lt_of_le h.1 hn, h.2.imp hn hu⟩
  | purgeAttachment cutoff limit id key current keys rest =>
    obtain ⟨hid, honly, hlive, hrest⟩ := h
    exact ⟨Nat.lt_of_lt_of_le hid hn,
      fun k hk => (honly k hk).imp (hu k (List.mem_append_left _ hk)),
      fun k hk => hlive k (hl id hid k hk),
      hrest.imp hn fun k hk => hu k (List.mem_append_right _ hk)⟩
  | purgeEvict cutoff limit id key current keys rest =>
    obtain ⟨hid, honly, hlive, hrest⟩ := h
    exact ⟨Nat.lt_of_lt_of_le hid hn,
      fun k hk => (honly k hk).imp (hu k (List.mem_append_left _ hk)),
      fun k hk => hlive k (hl id hid k hk),
      hrest.imp hn fun k hk => hu k (List.mem_append_right _ hk)⟩
  | purgeClear cutoff limit id rest =>
    obtain ⟨hid, hlive, hrest⟩ := h
    refine ⟨Nat.lt_of_lt_of_le hid hn, fun k => ?_, hrest.imp hn hu⟩
    by_contra hk
    exact absurd ((hlive k).symm.trans (hl id hid k (eq_true_of_ne_false hk))) (by simp)
  | orphanObject cutoff left key rest => exact hunused (fun k hk => hk) h
  | orphanRow cutoff left key rest => exact hunused (fun k hk => hk) h
  | messageAttachments | deleteMessage | chatAttachments | deleteChat | purgeBatch
  | orphanBatch => trivial

/-- What a step leaves: the messages that were there take up nothing, and what they use is in the
    store as before, or they are about to lose it. -/
structure Passes (s s' : State) : Prop where
  sound : s'.Sound
  next : s.nextMessage ≤ s'.nextMessage
  uses : ∀ id key, id < s.nextMessage → s'.uses id key = true → s.uses id key = true
  kept : ∀ id key, id < s.nextMessage → s'.uses id key = true →
    s.objects key = true ∨ s.isTaken id = true → s'.objects key = true ∨ s'.isTaken id = true

theorem Sound.refl (hs : s.Sound) : Passes s s :=
  ⟨hs, Nat.le_refl _, fun _ _ _ => id, fun _ _ _ _ => id⟩

theorem Passes.trans (h : Passes s s') (h' : Passes s' s'') : Passes s s'' where
  sound := h'.sound
  next := Nat.le_trans h.next h'.next
  uses id key hid hu := h.uses id key hid (h'.uses id key (Nat.lt_of_lt_of_le hid h.next) hu)
  kept id key hid hu hkept :=
    have hid' := Nat.lt_of_lt_of_le hid h.next
    h'.kept id key hid' hu (h.kept id key hid (h'.uses id key hid' hu) hkept)

theorem Sound.lt (hs : s.Sound) (hu : s.uses id key = true) : id < s.nextMessage := by
  obtain ⟨x, hx, -⟩ := hs.owned id key (names_of_uses hu)
  by_contra hle
  exact Option.some_ne_none x (hx.symm.trans (hs.fresh id (Nat.le_of_not_lt hle)))

theorem Sheds.owned (hd : Sheds s s') (hs : s.Sound) (hn : s'.names id key = true) :
    ∃ x, s'.messages id = some x ∧ x.chatId = key.chatId := by
  obtain ⟨x, hx, hchat⟩ := hs.owned id key (hd.names hn)
  have hsome : (s'.messages id).isSome := by
    rcases names_iff.1 hn with ⟨path, hp, -⟩ | hl
    · obtain ⟨x', hx', -⟩ := path_eq_some.1 hp
      exact Option.isSome_iff_exists.2 ⟨x', hx'⟩
    · obtain ⟨a', ha', hid⟩ := links_iff.1 hl
      obtain ⟨a, ha, -, -, hback⟩ := hd.row key a' ha'
      exact (hd.linked key a a' id ha ha' (hback id hid)
        (Option.isSome_iff_exists.2 ⟨x, hx⟩)).1 hid
  obtain ⟨x', hx'⟩ := Option.isSome_iff_exists.1 hsome
  obtain ⟨y, hy, hsame, -⟩ := hd.message id x' hx'
  obtain rfl := Option.some.inj (hx.symm.trans hy)
  exact ⟨x', hx', hsame.trans hchat⟩

/-- A job that takes a message takes it still, if the message still uses something. -/
theorem Sheds.takes (hd : Sheds s s') (hs : s.Sound) (hu : s'.uses id key = true)
    (ht : s.takes t id = true) : s'.takes t id = true := by
  cases t with
  | deleteChat chat =>
    obtain ⟨x', hx', -⟩ := hd.owned hs (names_of_uses hu)
    obtain ⟨x, hx, hchat, -⟩ := hd.message id x' hx'
    simpa [State.takes, isIn, hx, hx', hchat] using ht
  | _ => exact ht

theorem Sound.sheds (hs : s.Sound) (hd : Sheds s s') (ht : s'.tasks.Every s'.Ready) :
    s'.Sound where
  fresh id hid := by
    by_contra hne
    obtain ⟨x', hx'⟩ := Option.ne_none_iff_exists'.1 hne
    obtain ⟨x, hx, -⟩ := hd.message id x' hx'
    exact Option.some_ne_none x (hx.symm.trans (hs.fresh id (hd.next ▸ hid)))
  drawn key a' ha' := by
    obtain ⟨a, ha, hchat, -⟩ := hd.row key a' ha'
    exact ⟨hd.drawn ▸ (hs.drawn key a ha).1, hchat.trans (hs.drawn key a ha).2⟩
  owned id key hn := hd.owned hs hn
  apart id id' key hn hu := hs.apart id id' key (hd.names hn) (hd.uses hu)
  linked id key a' hp ha' := by
    obtain ⟨a, ha, -⟩ := hd.row key a' ha'
    have hid := hs.linked id key a (hd.path hp) ha
    obtain ⟨x', hx', -⟩ := path_eq_some.1 hp
    obtain ⟨x, hx, -⟩ := hd.message id x' hx'
    exact (hd.linked key a a' id ha ha' hid (Option.isSome_iff_exists.2 ⟨x, hx⟩)).2
      (Option.isSome_iff_exists.2 ⟨x', hx'⟩)
  tasks := ht

theorem Sound.passes (hs : s.Sound) (hd : Sheds s s')
    (htaken : ∀ id k, s'.uses id k = true → s.isTaken id = true → s'.isTaken id = true)
    (hready : s.tasks.Every s'.Ready → s'.tasks.Every s'.Ready)
    (hobjects : ∀ id k, s'.uses id k = true → s.objects k = true →
      s'.objects k = true ∨ s'.isTaken id = true) : Passes s s' where
  sound := hs.sheds hd <| hready <| hs.tasks.imp fun _ ht => ht.imp (Nat.le_of_eq hd.next.symm)
    (fun _ _ _ => hd.uses) (fun _ _ _ => hd.live) htaken
  next := Nat.le_of_eq hd.next.symm
  uses _ _ _ hu := hd.uses hu
  kept id k _ hu hkept := hkept.elim (hobjects id k hu) fun ht => .inr (htaken id k hu ht)

/-! ## Statements -/

theorem Sound.goOn (hs : s.Sound) (hi : s.tasks.get? i = some u)
    (hkeep : ∀ id k, s.uses id k = true → s.takes u id = true → s.takes t id = true)
    (hready : (s.goOn i t).Ready t) : Passes s (s.goOn i t) :=
  hs.passes (.of_eq rfl rfl rfl rfl)
    (fun id k hu ht => isTaken_iff.2 ((isTaken_iff.1 ht).goOn hi (hkeep id k hu)))
    (fun h => h.goOn hready) fun _ _ _ => .inl

theorem Sound.finish (hs : s.Sound) (hi : s.tasks.get? i = some u)
    (hnot : ∀ id k, s.uses id k = true → s.takes u id = false) : Passes s (s.finish i) :=
  hs.passes (.of_eq rfl rfl rfl rfl)
    (fun id k hu ht => isTaken_iff.2 ((isTaken_iff.1 ht).finish hi (by simp [hnot id k hu])))
    (fun h => h.finish) fun _ _ _ => .inl

theorem Sound.spawn (hs : s.Sound) (hready : (s.spawn t).Ready t) : Passes s (s.spawn t) :=
  hs.passes (.of_eq rfl rfl rfl rfl) (fun _ _ _ ht => isTaken_iff.2 (isTaken_iff.1 ht).spawn)
    (fun h => h.spawn hready) fun _ _ _ => .inl

theorem Sound.deleteObject (hs : s.Sound)
    (htaken : ∀ id, s.uses id key = true → s.isTaken id = true) : Passes s (s.deleteObject key) := by
  refine hs.passes (.of_eq rfl rfl rfl rfl) (fun _ _ _ => id) id fun id k hu ho => ?_
  by_cases hk : k = key
  · exact .inr (htaken id (hk ▸ hu))
  · exact .inl ((if_neg hk).trans ho)

/-- A statement on the tables. -/
theorem Sound.statement (hs : s.Sound) (hd : Sheds s s') (ht : s'.tasks = s.tasks)
    (ho : s'.objects = s.objects) : Passes s s' := by
  refine hs.passes hd (fun id k hu h => ?_) (fun h => ht ▸ h) fun _ _ _ h => .inl (ho ▸ h)
  rw [isTaken_iff] at h ⊢
  exact ht ▸ h.imp fun t => hd.takes hs hu

theorem Sound.fireAndForgetDeletes {keys : List Key} (hs : s.Sound)
    (htaken : ∀ k ∈ keys, ∀ id, s.uses id k = true → s.isTaken id = true) :
    Passes s (s.fireAndForgetDeletes keys) := by
  rw [State.fireAndForgetDeletes]
  split_ifs
  · exact hs.refl
  · exact hs.spawn fun k hk id hu => isTaken_iff.2 (isTaken_iff.1 (htaken k hk id hu)).spawn

theorem isTaken_goOn (hi : s.tasks.get? i = some u) (ht : s.takes t id = true) :
    (s.goOn i t).isTaken id = true :=
  isTaken_iff.2 (Tasks.some_goOn hi ht)

theorem mem_foldl_addKey {keys l : List Key} :
    key ∈ l.foldl addKey keys ↔ key ∈ keys ∨ key ∈ l := by
  induction l generalizing keys with
  | nil => simp
  | cons k l ih =>
    rw [List.foldl_cons, ih, addKey]
    split_ifs with hk
    · rw [List.mem_cons]
      refine or_congr_right' fun hkey => ⟨.inr, ?_⟩
      rintro (rfl | h)
      · exact absurd hk hkey
      · exact h
    · simp [or_assoc]

theorem Sound.only (hs : s.Sound) (hn : s.names id key = true) : s.Only id key :=
  fun id' hu => (hs.apart id id' key hn hu).symm

theorem only_attachmentsOf (hs : s.Sound) : ∀ k ∈ s.attachmentsOf id, s.Only id k := by
  intro k hk
  have hlinks : s.links id k = true := (List.mem_filter.1 hk).2
  exact hs.only (names_iff.2 (.inr hlinks))

theorem only_path (hs : s.Sound) {path : Path} (hp : s.path id = some path) :
    s.Only id path.key :=
  hs.only (names_iff.2 (.inl ⟨path, hp, rfl⟩))

theorem chatId_attachmentsIn (hs : s.Sound) {chat : ChatId} :
    ∀ k ∈ s.attachmentsIn chat, k.chatId = chat := by
  intro k hk
  obtain ⟨a, ha, hchat⟩ := Option.any_eq_true _ _ |>.1 (List.mem_filter.1 hk).2
  exact (hs.drawn k a ha).2.symm.trans (of_decide_eq_true hchat)

theorem chatId_pathsIn (hs : s.Sound) {chat : ChatId} : ∀ k ∈ s.pathsIn chat, k.chatId = chat := by
  intro k hk
  obtain ⟨id, hid, hp⟩ := List.mem_filterMap.1 hk
  obtain ⟨path, hpath, rfl⟩ := Option.map_eq_some_iff.1 hp
  obtain ⟨x, hx, hchat⟩ := hs.owned id path.key (names_iff.2 (.inl ⟨path, hpath, rfl⟩))
  have hin := (List.mem_filter.1 hid).2
  rw [isIn, hx, Option.any_some, decide_eq_true_eq] at hin
  exact hchat.symm.trans hin

theorem batch_expired (hs : s.Sound) {cutoff limit : ℕ} : s.Batch (s.expired cutoff limit) := by
  intro y hy
  obtain ⟨id, hid, hy⟩ := List.mem_filterMap.1 (List.mem_of_mem_take hy)
  obtain ⟨x, hx, hy⟩ := Option.bind_eq_some_iff.1 hy
  split_ifs at hy
  obtain ⟨path, hp, rfl⟩ := Option.map_eq_some_iff.1 hy
  exact ⟨List.mem_range.1 hid, only_path hs (path_eq_some.2 ⟨x, hx, hp⟩)⟩

theorem not_uses_orphans (hs : s.Sound) {cutoff limit : ℕ} :
    ∀ k ∈ s.orphans cutoff limit, ∀ id, s.uses id k = false := by
  intro k hk id
  obtain ⟨a, ha, horphan⟩ :=
    Option.any_eq_true _ _ |>.1 (List.mem_filter.1 (List.mem_of_mem_take hk)).2
  have hnone : a.messageId ≠ some id := by
    intro hid
    simp [hid] at horphan
  by_contra hu
  rcases uses_iff.1 (eq_true_of_ne_false hu) with hp | hl
  · exact hnone (hs.linked id k a hp ha)
  · obtain ⟨b, hb, hid, -⟩ := live_iff.1 hl
    obtain rfl := Option.some.inj (ha.symm.trans hb)
    exact hnone hid

theorem ready_purge {cutoff limit : ℕ} {rest : List (MessageId × Path)} (h : s.Batch rest) :
    s.Ready (.purge cutoff limit rest) := by
  cases rest with
  | nil => trivial
  | cons x rest =>
    obtain ⟨hid, honly⟩ := h x List.mem_cons_self
    exact ⟨hid, honly, fun y hy => h y (List.mem_cons_of_mem _ hy)⟩

theorem ready_purgeEach {cutoff limit : ℕ} {rest : List (MessageId × Path)} {keys : List Key}
    (hid : id < s.nextMessage) (honly : ∀ k ∈ keys, s.Only id k)
    (hlive : ∀ k, s.live id k = true → k ∈ keys) (h : s.Batch rest) :
    s.Ready (.purgeEach cutoff limit id key rest keys) := by
  cases keys with
  | nil => exact ⟨hid, fun k => eq_false_of_ne_true fun hk => List.not_mem_nil (hlive k hk), h⟩
  | cons current keys => exact ⟨hid, honly, hlive, h⟩

theorem takes_purgeEach {cutoff limit : ℕ} {rest : List (MessageId × Path)} {keys : List Key} :
    s.takes (.purgeEach cutoff limit id key rest keys) id' = decide (id' = id) := by
  cases keys <;> rfl

theorem ready_orphans {cutoff left : ℕ} {keys : List Key}
    (h : ∀ k ∈ keys, ∀ id, s.uses id k = false) : s.Ready (.orphans cutoff left keys) := by
  cases keys with
  | nil => trivial
  | cons key rest => exact h

/-- The deletion of a message: its objects are selected while it is about to go. -/
theorem passes_messagePath {keys : List Key} (hs : s.Sound)
    (hi : s.tasks.get? i = some (.messagePath id keys)) :
    Passes s ((s.goOn i (.deleteMessage id)).fireAndForgetDeletes
      (((s.path id).map (·.key)).toList.foldl addKey keys)) := by
  have hstep : Passes s (s.goOn i (.deleteMessage id)) :=
    hs.goOn hi (fun _ _ _ h => absurd h (by simp [takes])) trivial
  refine hstep.trans (hstep.sound.fireAndForgetDeletes fun k hk id' hu => ?_)
  have honly : s.Only id k := by
    rcases mem_foldl_addKey.1 hk with hk | hk
    · exact hs.tasks i _ hi k hk
    · obtain ⟨path, hp, rfl⟩ := Option.map_eq_some_iff.1 (Option.mem_toList.1 hk)
      exact only_path hs hp
  exact isTaken_goOn hi (decide_eq_true (honly id' hu))

theorem passes_chatPaths {chat : ChatId} {keys : List Key} (hs : s.Sound)
    (hi : s.tasks.get? i = some (.chatPaths chat keys)) :
    Passes s ((s.goOn i (.deleteChat chat)).fireAndForgetDeletes
      ((s.pathsIn chat).foldl addKey keys)) := by
  have hstep : Passes s (s.goOn i (.deleteChat chat)) :=
    hs.goOn hi (fun _ _ _ h => absurd h (by simp [takes])) trivial
  refine hstep.trans (hstep.sound.fireAndForgetDeletes fun k hk id' hu => ?_)
  have hchat : k.chatId = chat := by
    rcases mem_foldl_addKey.1 hk with hk | hk
    · exact hs.tasks i _ hi k hk
    · exact chatId_pathsIn hs k hk
  obtain ⟨x, hx, hin⟩ := hs.owned id' k (names_of_uses hu)
  exact isTaken_goOn hi (by simp [takes, isIn, hx, hin, hchat])

theorem passes_deleteMessage (hs : s.Sound)
    (hi : s.tasks.get? i = some (.deleteMessage id)) :
    Passes s ((s.deleteMessages (· = id)).finish i) := by
  have hstep := hs.statement (sheds_deleteMessages s fun id' => decide (id' = id)) rfl rfl
  refine hstep.trans (hstep.sound.finish hi fun id' k hu => decide_eq_false ?_)
  rintro rfl
  obtain ⟨x, hx, -⟩ := hstep.sound.owned id' k (names_of_uses hu)
  simp [deleteMessages] at hx

theorem passes_deleteChat {chat : ChatId} (hs : s.Sound)
    (hi : s.tasks.get? i = some (.deleteChat chat)) :
    Passes s ((s.deleteChat chat).finish i) := by
  have hstep := hs.statement (sheds_deleteChat s chat) rfl rfl
  refine hstep.trans (hstep.sound.finish hi fun id' k hu => ?_)
  obtain ⟨x, hx, -⟩ := hstep.sound.owned id' k (names_of_uses hu)
  have hout : s.isIn chat id' = false := by
    by_contra hin
    simp [State.deleteChat, deleteMessages, hin] at hx
  have hsame : (s.deleteChat chat).messages id' = s.messages id' := by
    change (if s.isIn chat id' then none else s.messages id') = _
    rw [hout, if_neg Bool.false_ne_true]
  exact (congrArg (Option.any _) hsame).trans hout

theorem passes_purgeBatch {cutoff limit : ℕ} (hs : s.Sound)
    (hi : s.tasks.get? i = some (.purgeBatch cutoff limit)) {rest : List (MessageId × Path)}
    (hrest : s.Batch rest) : Passes s (s.goOn i (.purge cutoff limit rest)) :=
  hs.goOn hi (fun _ _ _ h => absurd h (by simp [takes])) (ready_purge hrest)

theorem passes_purgePath {cutoff limit : ℕ} {rest : List (MessageId × Path)} (hs : s.Sound)
    (hi : s.tasks.get? i = some (.purgePath cutoff limit id key rest)) :
    Passes s ((s.goOn i (.purgeAttachments cutoff limit id key rest)).deleteObject key) := by
  obtain ⟨hid, honly, hrest⟩ := hs.tasks i _ hi
  have hstep : Passes s (s.goOn i (.purgeAttachments cutoff limit id key rest)) :=
    hs.goOn hi (fun _ _ _ h => absurd h (by simp [takes])) ⟨hid, hrest⟩
  exact hstep.trans (hstep.sound.deleteObject fun id' hu =>
    isTaken_goOn hi (decide_eq_true (honly id' hu)))

theorem passes_purgeAttachments {cutoff limit : ℕ} {rest : List (MessageId × Path)} (hs : s.Sound)
    (hi : s.tasks.get? i = some (.purgeAttachments cutoff limit id key rest)) :
    Passes s (s.goOn i (.purgeEach cutoff limit id key rest (s.drawn.filter (s.live id)))) := by
  obtain ⟨hid, hrest⟩ := hs.tasks i _ hi
  refine hs.goOn hi (fun id' _ _ h => takes_purgeEach.trans h)
    (ready_purgeEach hid (fun k hk => ?_) (fun k hk => ?_) hrest)
  · exact hs.only (names_iff.2 (.inr (links_of_live (List.mem_filter.1 hk).2)))
  · obtain ⟨a, ha, -⟩ := live_iff.1 hk
    exact List.mem_filter.2 ⟨(hs.drawn k a ha).1, hk⟩

theorem passes_purgeAttachment {cutoff limit : ℕ} {current : Key} {keys : List Key}
    {rest : List (MessageId × Path)} (hs : s.Sound)
    (hi : s.tasks.get? i = some (.purgeAttachment cutoff limit id key current keys rest)) :
    Passes s (if current ≠ key then
        (s.goOn i (.purgeEvict cutoff limit id key current keys rest)).deleteObject current
      else s.goOn i (.purgeEvict cutoff limit id key current keys rest)) := by
  obtain ⟨hid, honly, hlive, hrest⟩ := hs.tasks i _ hi
  have hstep : Passes s (s.goOn i (.purgeEvict cutoff limit id key current keys rest)) :=
    hs.goOn hi (fun _ _ _ h => h)
      ⟨hid, fun k hk => honly k (List.mem_cons_of_mem _ hk), hlive, hrest⟩
  split_ifs
  · exact hstep.trans (hstep.sound.deleteObject fun id' hu =>
      isTaken_goOn hi (decide_eq_true (honly current List.mem_cons_self id' hu)))
  · exact hstep

/-- A row is evicted, and there is one less to go. -/
theorem passes_purgeEvict {cutoff limit : ℕ} {current : Key} {keys : List Key}
    {rest : List (MessageId × Path)} (hs : s.Sound)
    (hi : s.tasks.get? i = some (.purgeEvict cutoff limit id key current keys rest)) :
    Passes s ((s.evict current).goOn i (.purgeEach cutoff limit id key rest keys)) := by
  have hstep := hs.statement (sheds_evict s current) rfl rfl
  obtain ⟨hid, honly, hlive, hrest⟩ := hstep.sound.tasks i _ hi
  refine hstep.trans (hstep.sound.goOn hi (fun id' _ _ h => takes_purgeEach.trans h)
    (ready_purgeEach hid honly (fun k hk => ?_) hrest))
  refine (List.mem_cons.1 (hlive k hk)).resolve_left ?_
  rintro rfl
  obtain ⟨a, ha, -, hev⟩ := live_iff.1 hk
  simp only [State.goOn, evict, if_pos] at ha
  obtain ⟨b, -, rfl⟩ := Option.map_eq_some_iff.1 ha
  exact Bool.noConfusion hev

/-- A message has lost its rows, and loses its path. -/
theorem passes_purgeClear {cutoff limit : ℕ} {rest : List (MessageId × Path)} (hs : s.Sound)
    (hi : s.tasks.get? i = some (.purgeClear cutoff limit id rest)) :
    Passes s ((s.clearPath id).goOn i (.purge cutoff limit rest)) := by
  have hstep := hs.statement (sheds_clearPath s id) rfl rfl
  obtain ⟨-, hlive, hrest⟩ := hstep.sound.tasks i _ hi
  refine hstep.trans (hstep.sound.goOn hi (fun id' k hu ht => ?_) (ready_purge hrest))
  obtain rfl : id' = id := of_decide_eq_true ht
  have hp := (uses_iff.1 hu).resolve_right (by simp [hlive k])
  obtain ⟨x, hx, hpath⟩ := path_eq_some.1 hp
  simp only [clearPath, if_pos] at hx
  obtain ⟨y, -, rfl⟩ := Option.map_eq_some_iff.1 hx
  exact absurd hpath.symm (Option.some_ne_none _)

theorem passes_orphanObject {cutoff left : ℕ} {rest : List Key} (hs : s.Sound)
    (hi : s.tasks.get? i = some (.orphanObject cutoff left key rest)) :
    Passes s ((s.goOn i (.orphanRow cutoff left key rest)).deleteObject key) := by
  have hnone := hs.tasks i _ hi
  have hstep : Passes s (s.goOn i (.orphanRow cutoff left key rest)) :=
    hs.goOn hi (fun _ _ _ h => absurd h (by simp [takes])) fun k hk =>
      hnone k (List.mem_cons_of_mem _ hk)
  exact hstep.trans (hstep.sound.deleteObject fun id hu =>
    absurd (hu.symm.trans (hnone key List.mem_cons_self id)) (by simp))

theorem passes_orphanRow {cutoff left : ℕ} {rest : List Key} (hs : s.Sound)
    (hi : s.tasks.get? i = some (.orphanRow cutoff left key rest)) :
    Passes s ((s.deleteRow key).goOn i (.orphans cutoff (left - 1) rest)) := by
  have hstep := hs.statement (sheds_deleteRow s key) rfl rfl
  exact hstep.trans (hstep.sound.goOn hi (fun _ _ _ h => absurd h (by simp [takes]))
    (ready_orphans (hstep.sound.tasks i _ hi)))

/-- A statement of a job takes away nothing that a message goes on to use. -/
theorem passes_execute (hs : s.Sound) (hi : s.tasks.get? i = some t)
    (h : s.execute i t = some s') : Passes s s' := by
  cases t with
  | messageAttachments id =>
    exact Option.some.inj h ▸ hs.goOn hi (fun _ _ _ h => absurd h (by simp [takes]))
      (only_attachmentsOf hs)
  | messagePath id keys => exact Option.some.inj h ▸ passes_messagePath hs hi
  | deleteMessage id => exact Option.some.inj h ▸ passes_deleteMessage hs hi
  | chatAttachments chat =>
    exact Option.some.inj h ▸ hs.goOn hi (fun _ _ _ h => absurd h (by simp [takes]))
      (chatId_attachmentsIn hs)
  | chatPaths chat keys => exact Option.some.inj h ▸ passes_chatPaths hs hi
  | deleteChat chat => exact Option.some.inj h ▸ passes_deleteChat hs hi
  | deleteAllInBackground keys => exact absurd h.symm (Option.some_ne_none s')
  | purgeBatch cutoff limit =>
    rw [execute] at h
    split_ifs at h
    · exact Option.some.inj h ▸ hs.finish hi fun _ _ _ => rfl
    · exact Option.some.inj h ▸ passes_purgeBatch hs hi (batch_expired hs)
  | purgePath cutoff limit id key rest => exact Option.some.inj h ▸ passes_purgePath hs hi
  | purgeAttachments cutoff limit id key rest =>
    exact Option.some.inj h ▸ passes_purgeAttachments hs hi
  | purgeAttachment cutoff limit id key current keys rest =>
    exact Option.some.inj h ▸ passes_purgeAttachment hs hi
  | purgeEvict cutoff limit id key current keys rest =>
    exact Option.some.inj h ▸ passes_purgeEvict hs hi
  | purgeClear cutoff limit id rest => exact Option.some.inj h ▸ passes_purgeClear hs hi
  | orphanBatch cutoff left =>
    rw [execute] at h
    split_ifs at h
    · exact Option.some.inj h ▸ hs.finish hi fun _ _ _ => rfl
    · exact Option.some.inj h ▸ hs.goOn hi (fun _ _ _ h => absurd h (by simp [takes]))
        (ready_orphans (not_uses_orphans hs))
  | orphanObject cutoff left key rest => exact Option.some.inj h ▸ passes_orphanObject hs hi
  | orphanRow cutoff left key rest => exact Option.some.inj h ▸ passes_orphanRow hs hi

/-! ## Uploads and messages -/

theorem isFresh_iff : s.isFresh key = true ↔
    s.attachments key = none ∧ ∀ id < s.nextMessage, s.names id key = false := by
  simp [isFresh]

theorem passes_uploadUrl (hs : s.Sound) (h : s.isFresh key = true) :
    Passes s (s.uploadUrl key) := by
  obtain ⟨hnone, hfresh⟩ := isFresh_iff.1 h
  have hrow : ∀ k a, (s.uploadUrl key).attachments k = some a → s.attachments k = some a ∨
      k = key ∧ a = ⟨key.chatId, none, false, s.now⟩ := by
    intro k a ha
    rw [uploadUrl] at ha
    dsimp only at ha
    split_ifs at ha with hk
    · exact .inr ⟨hk, (Option.some.inj ha).symm⟩
    · exact .inl ha
  have hlive : ∀ id k, (s.uploadUrl key).live id k = true → s.live id k = true := by
    intro id k hl
    obtain ⟨a, ha, hid, hev⟩ := live_iff.1 hl
    rcases hrow k a ha with ha | ⟨-, rfl⟩
    · exact live_iff.2 ⟨a, ha, hid, hev⟩
    · exact absurd hid.symm (Option.some_ne_none id)
  have huses : ∀ id k, (s.uploadUrl key).uses id k = true → s.uses id k = true :=
    fun id k hu => uses_iff.2 ((uses_iff.1 hu).imp_right (hlive id k))
  have hnames : ∀ id k, (s.uploadUrl key).names id k = true → s.names id k = true := by
    intro id k hn
    refine names_iff.2 ((names_iff.1 hn).imp_right fun hl => ?_)
    obtain ⟨a, ha, hid⟩ := links_iff.1 hl
    rcases hrow k a ha with ha | ⟨-, rfl⟩
    · exact links_iff.2 ⟨a, ha, hid⟩
    · exact absurd hid.symm (Option.some_ne_none id)
  refine ⟨⟨hs.fresh, ?_, fun id k hn => hs.owned id k (hnames id k hn),
    fun id id' k hn hu => hs.apart id id' k (hnames id k hn) (huses id' k hu), ?_,
    hs.tasks.imp fun _ ht => ht.imp (Nat.le_refl _) (fun k _ id => huses id k)
      (fun id _ => hlive id) fun _ _ _ => id⟩, Nat.le_refl _, fun id k _ => huses id k,
    fun _ _ _ _ => id⟩
  · intro k a ha
    rcases hrow k a ha with ha | ⟨rfl, rfl⟩
    · obtain ⟨hk, hchat⟩ := hs.drawn k a ha
      exact ⟨List.mem_append_left _ hk, hchat⟩
    · exact ⟨List.mem_append_right _ (List.mem_singleton_self _), rfl⟩
  · intro id k a hp ha
    rcases hrow k a ha with ha | ⟨rfl, -⟩
    · exact hs.linked id k a hp ha
    · have hu : s.uses id k = true := uses_iff.2 (.inl hp)
      exact absurd ((hfresh id (hs.lt hu)).symm.trans (names_of_uses hu)) (by simp)

section
variable {chat : ChatId} {user : UserId} {mediaPath : Option Path} {attachmentKeys : List Path}

theorem path_persist (hid : id ≠ s.nextMessage) :
    (s.persistChatMessageAndFanOut chat mediaPath attachmentKeys).path id = s.path id := by
  rw [path, persistChatMessageAndFanOut]
  dsimp only
  rw [if_neg hid, path]

theorem path_persist_new :
    (s.persistChatMessageAndFanOut chat mediaPath attachmentKeys).path s.nextMessage =
      mediaPath := by
  rw [path, persistChatMessageAndFanOut]
  dsimp only
  rw [if_pos rfl, Option.bind_some]

/-- The rows that are named are linked to the new message, and the others stay as they are. -/
theorem row_persist {a : Attachment}
    (ha : (s.persistChatMessageAndFanOut chat mediaPath attachmentKeys).attachments key = some a) :
    (⟨key, 0⟩ ∈ s.takenUp mediaPath attachmentKeys ∧ ∃ b, s.attachments key = some b ∧
      a = { b with messageId := some s.nextMessage }) ∨
    (⟨key, 0⟩ ∉ s.takenUp mediaPath attachmentKeys ∧ s.attachments key = some a) := by
  rw [persistChatMessageAndFanOut] at ha
  dsimp only at ha
  split_ifs at ha with hk
  · obtain ⟨b, hb, rfl⟩ := Option.map_eq_some_iff.1 ha
    refine .inl ⟨?_, b, hb, rfl⟩
    rcases List.mem_append.1 hk with hk | hk
    · exact List.mem_append_left _ hk
    · exact List.mem_append_right _ (List.mem_filter.2 ⟨hk, by simp [hb]⟩)
  · refine .inr ⟨fun hmem => hk ?_, ha⟩
    rcases List.mem_append.1 hmem with hmem | hmem
    · exact List.mem_append_left _ hmem
    · exact List.mem_append_right _ (List.mem_filter.1 hmem).1

theorem links_persist (hid : id ≠ s.nextMessage)
    (hl : (s.persistChatMessageAndFanOut chat mediaPath attachmentKeys).links id key = true) :
    s.links id key = true ∧ ⟨key, 0⟩ ∉ s.takenUp mediaPath attachmentKeys := by
  obtain ⟨a, ha, ha'⟩ := links_iff.1 hl
  rcases row_persist ha with ⟨-, b, -, rfl⟩ | ⟨hk, hb⟩
  · exact absurd (Option.some.inj ha').symm hid
  · exact ⟨links_iff.2 ⟨a, hb, ha'⟩, hk⟩

theorem live_persist (hid : id ≠ s.nextMessage)
    (hl : (s.persistChatMessageAndFanOut chat mediaPath attachmentKeys).live id key = true) :
    s.live id key = true := by
  obtain ⟨a, ha, ha', hev⟩ := live_iff.1 hl
  rcases row_persist ha with ⟨-, b, -, rfl⟩ | ⟨-, hb⟩
  · exact absurd (Option.some.inj ha').symm hid
  · exact live_iff.2 ⟨a, hb, ha', hev⟩

theorem uses_persist (hid : id ≠ s.nextMessage)
    (hu : (s.persistChatMessageAndFanOut chat mediaPath attachmentKeys).uses id key = true) :
    s.uses id key = true := by
  rw [uses_iff, path_persist hid] at hu
  exact uses_iff.2 (hu.imp_right (live_persist hid))

theorem names_persist (hid : id ≠ s.nextMessage)
    (hn : (s.persistChatMessageAndFanOut chat mediaPath attachmentKeys).names id key = true) :
    s.names id key = true := by
  rw [names_iff, path_persist hid] at hn
  exact names_iff.2 (hn.imp_right fun hl => (links_persist hid hl).1)

theorem links_persist_new (hs : s.Sound)
    (hl : (s.persistChatMessageAndFanOut chat mediaPath attachmentKeys).links s.nextMessage key =
      true) : ⟨key, 0⟩ ∈ s.takenUp mediaPath attachmentKeys := by
  obtain ⟨a, ha, ha'⟩ := links_iff.1 hl
  rcases row_persist ha with ⟨hk, -⟩ | ⟨-, hb⟩
  · exact hk
  · obtain ⟨x, hx, -⟩ := hs.owned _ key (names_iff.2 (.inr (links_iff.2 ⟨a, hb, ha'⟩)))
    exact absurd (hx.symm.trans (hs.fresh _ (Nat.le_refl _))) (Option.some_ne_none x)

theorem uses_persist_new (hs : s.Sound)
    (hu : (s.persistChatMessageAndFanOut chat mediaPath attachmentKeys).uses s.nextMessage key =
      true) : ⟨key, 0⟩ ∈ s.takenUp mediaPath attachmentKeys := by
  rw [uses_iff, path_persist_new] at hu
  rcases hu with rfl | hl
  · exact List.mem_append_left _ (List.mem_singleton_self _)
  · exact links_persist_new hs (links_of_live hl)

theorem names_persist_new (hs : s.Sound)
    (hn : (s.persistChatMessageAndFanOut chat mediaPath attachmentKeys).names s.nextMessage key =
      true) : ∃ path ∈ s.takenUp mediaPath attachmentKeys, path.key = key := by
  rw [names_iff, path_persist_new] at hn
  rcases hn with ⟨path, rfl, hkey⟩ | hl
  · exact ⟨path, List.mem_append_left _ (List.mem_singleton_self _), hkey⟩
  · exact ⟨⟨key, 0⟩, links_persist_new hs hl, rfl⟩

theorem not_isSelected_of_isApart (h : s.isApart ⟨key, 0⟩ = true) : s.isSelected key = false := by
  rw [isApart, if_pos rfl, Bool.and_eq_true] at h
  simpa using h.1

theorem path_key_ne_of_isApart (hs : s.Sound) (h : s.isApart ⟨key, 0⟩ = true) {path : Path}
    (hp : s.path id = some path) : path.key ≠ key := by
  rw [isApart, if_pos rfl, Bool.and_eq_true, List.all_eq_true] at h
  obtain ⟨x, hx, -⟩ := path_eq_some.1 hp
  have hlt : id < s.nextMessage := by
    by_contra hle
    exact Option.some_ne_none x (hx.symm.trans (hs.fresh id (Nat.le_of_not_lt hle)))
  simpa [hp] using h.2 id (List.mem_range.2 hlt)

theorem not_uses_of_isApart (hs : s.Sound) {path : Path} (h : s.isApart path = true)
    (hblanks : path.blanks ≠ 0) : s.uses id path.key = false := by
  rw [isApart, if_neg hblanks, List.all_eq_true] at h
  by_contra hu
  have hlt := hs.lt (eq_true_of_ne_false hu)
  exact hu (by simpa using h id (List.mem_range.2 hlt))

theorem chatId_of_accepts (h : accepts chat user mediaPath attachmentKeys = true) {path : Path}
    (hp : path ∈ s.takenUp mediaPath attachmentKeys) : path.key.chatId = chat := by
  have hmem : path ∈ mediaPath.toList ++ attachmentKeys := by
    rcases List.mem_append.1 hp with hp | hp
    · exact List.mem_append_left _ hp
    · exact List.mem_append_right _ (List.mem_filter.1 hp).1
  have howned := List.all_eq_true.1 h path hmem
  rw [isOwnedMediaKey, Bool.and_eq_true, decide_eq_true_eq] at howned
  exact howned.1

/-- A message that is kept apart shares nothing with the others. -/
theorem apart_persist (hs : s.Sound)
    (hapart : ∀ path ∈ s.takenUp mediaPath attachmentKeys, s.isApart path = true)
    (hn : (s.persistChatMessageAndFanOut chat mediaPath attachmentKeys).names id key = true)
    (hu : (s.persistChatMessageAndFanOut chat mediaPath attachmentKeys).uses id' key = true) :
    id = id' := by
  by_cases hid : id = s.nextMessage <;> by_cases hid' : id' = s.nextMessage
  · exact hid.trans hid'.symm
  · -- The new message would take what an old one uses.
    subst hid
    have hold := uses_persist hid' hu
    obtain ⟨⟨k, blanks⟩, hpath, rfl⟩ := names_persist_new hs hn
    by_cases hblanks : blanks = 0
    · subst hblanks
      rw [uses_iff, path_persist hid'] at hu
      rcases hu with hp | hl
      · exact absurd rfl (path_key_ne_of_isApart hs (hapart _ hpath) hp)
      · exact absurd hpath (links_persist hid' (links_of_live hl)).2
    · exact absurd (hold.symm.trans (not_uses_of_isApart hs (hapart _ hpath) hblanks)) (by simp)
  · -- An old message would take what the new one uses.
    subst hid'
    have hpath := uses_persist_new hs hu
    rw [names_iff, path_persist hid] at hn
    rcases hn with ⟨path, hp, hkey⟩ | hl
    · exact absurd hkey (path_key_ne_of_isApart hs (hapart _ hpath) hp)
    · exact absurd hpath (links_persist hid hl).2
  · exact hs.apart id id' key (names_persist hid hn) (uses_persist hid' hu)

theorem messages_persist (hid : id ≠ s.nextMessage) :
    (s.persistChatMessageAndFanOut chat mediaPath attachmentKeys).messages id = s.messages id :=
  if_neg hid

theorem passes_persist (hs : s.Sound) (h : accepts chat user mediaPath attachmentKeys = true)
    (hapart : ∀ path ∈ s.takenUp mediaPath attachmentKeys, s.isApart path = true) :
    Passes s (s.persistChatMessageAndFanOut chat mediaPath attachmentKeys) := by
  have htaken : ∀ id, s.isTaken id = true →
      (s.persistChatMessageAndFanOut chat mediaPath attachmentKeys).isTaken id = true := by
    intro id ht
    refine isTaken_iff.2 ((isTaken_iff.1 ht).imp fun t ht => ?_)
    cases t with
    | deleteChat chat' =>
      refine (congrArg (Option.any _) (messages_persist ?_)).trans ht
      rintro rfl
      rw [takes, isIn, hs.fresh _ (Nat.le_refl _)] at ht
      exact Bool.noConfusion ht
    | _ => exact ht
  refine ⟨⟨fun id hid => ?_, fun k a ha => ?_, fun id k hn => ?_,
    fun id id' k hn hu => apart_persist hs hapart hn hu, fun id k a hp ha => ?_,
    fun i t hi => ?_⟩, Nat.le_succ _, fun id k hid => uses_persist (Nat.ne_of_lt hid),
    fun id _ _ _ hkept => hkept.imp_right (htaken id)⟩
  · have hne : id ≠ s.nextMessage := Nat.ne_of_gt hid
    exact (messages_persist hne).trans (hs.fresh id (Nat.le_of_succ_le hid))
  · rcases row_persist ha with ⟨-, b, hb, rfl⟩ | ⟨-, hb⟩
    · exact hs.drawn k b hb
    · exact hs.drawn k a hb
  · by_cases hid : id = s.nextMessage
    · subst hid
      obtain ⟨path, hpath, rfl⟩ := names_persist_new hs hn
      exact ⟨_, if_pos rfl, (chatId_of_accepts h hpath).symm⟩
    · rw [messages_persist hid]
      exact hs.owned id k (names_persist hid hn)
  · by_cases hid : id = s.nextMessage
    · subst hid
      rw [path_persist_new] at hp
      subst hp
      rcases row_persist ha with ⟨-, b, -, rfl⟩ | ⟨hk, -⟩
      · rfl
      · exact absurd (List.mem_append_left _ (List.mem_singleton_self _)) hk
    · rw [path_persist hid] at hp
      rcases row_persist ha with ⟨hk, -⟩ | ⟨-, hb⟩
      · exact absurd rfl (path_key_ne_of_isApart hs (hapart _ hk) hp)
      · exact hs.linked id k a hp hb
  · refine (hs.tasks i t hi).imp (Nat.le_succ _) (fun k hk id hu => ?_)
      (fun id hid _ => live_persist (Nat.ne_of_lt hid)) fun id _ _ => htaken id
    by_cases hid : id = s.nextMessage
    · subst hid
      have hsel := not_isSelected_of_isApart (hapart _ (uses_persist_new hs hu))
      exact absurd ((isSelected_iff.2 ⟨i, t, hi, hk⟩).symm.trans hsel) (by simp)
    · exact uses_persist hid hu

end

theorem passes_send {chat : ChatId} {user : UserId} {mediaPath : Option Path}
    {attachmentKeys : List Path} (hs : s.Sound)
    (hapart : keepsApart s (.send chat user mediaPath attachmentKeys) = true) :
    Passes s (s.send chat user mediaPath attachmentKeys) := by
  rw [send]
  split_ifs with h
  · simp only [keepsApart, h, Bool.not_true, Bool.false_or, List.all_eq_true] at hapart
    exact passes_persist hs h hapart
  · exact hs.refl

theorem hasMedia_of_uses (hs : s.Sound) (hu : s.uses id key = true) : s.hasMedia id = true := by
  rw [hasMedia, Bool.or_eq_true]
  refine (uses_iff.1 hu).imp (fun hp => by simp [hp]) fun hl => ?_
  obtain ⟨a, ha, -⟩ := live_iff.1 hl
  exact List.any_eq_true.2 ⟨key, (hs.drawn key a ha).1, hl⟩

theorem passes_fail (hs : s.Sound) (hi : s.tasks.get? i = some t)
    (hapart : keepsApart s (.fail i) = true) : Passes s (s.finish i) := by
  refine hs.finish hi fun id k hu => ?_
  simp only [keepsApart, hi, Option.all_some, List.all_eq_true] at hapart
  simpa [hasMedia_of_uses hs hu] using hapart id (List.mem_range.2 (hs.lt hu))

/-- An object that is deleted in the background is of messages that are about to go. -/
theorem passes_deleteObject {keys : List Key} (hs : s.Sound)
    (hi : s.tasks.get? i = some (.deleteAllInBackground keys)) (hkey : key ∈ keys) :
    Passes s ((if keys.erase key = [] then s.finish i
      else s.goOn i (.deleteAllInBackground (keys.erase key))).deleteObject key) := by
  have hready := hs.tasks i _ hi
  have hkeep : ∀ id, s.isTaken id = true →
      (s.goOn i (.deleteAllInBackground (keys.erase key))).isTaken id = true :=
    fun id ht => isTaken_iff.2 ((isTaken_iff.1 ht).goOn hi fun h => absurd h (by simp [takes]))
  split_ifs
  · have hstep : Passes s (s.finish i) := hs.finish hi fun _ _ _ => rfl
    refine hstep.trans (hstep.sound.deleteObject fun id hu => ?_)
    exact isTaken_iff.2 ((isTaken_iff.1 (hready key hkey id hu)).finish hi (by simp [takes]))
  · have hstep : Passes s (s.goOn i (.deleteAllInBackground (keys.erase key))) :=
      hs.goOn hi (fun _ _ _ h => absurd h (by simp [takes])) fun k hk id hu =>
        hkeep id (hready k (List.mem_of_mem_erase hk) id hu)
    exact hstep.trans (hstep.sound.deleteObject fun id hu => hkeep id (hready key hkey id hu))

theorem passes_put (hs : s.Sound) :
    Passes s { s with objects := fun k => k = key || s.objects k } :=
  hs.passes (.of_eq rfl rfl rfl rfl) (fun _ _ _ => id) id fun _ _ _ ho =>
    .inl (Bool.or_eq_true_iff.2 (.inr ho))

end State

open State

variable {s s' : State} {e : Event}

theorem sound_init (h : machine.init s) : s.Sound := by
  obtain ⟨now, rfl⟩ := h
  exact ⟨fun _ _ => rfl, fun _ _ ha => absurd ha.symm (Option.some_ne_none _),
    fun _ _ hn => Bool.noConfusion hn, fun _ _ _ hn => Bool.noConfusion hn,
    fun _ _ _ hp => absurd hp.symm (Option.some_ne_none _), .empty⟩

theorem passes_step (hs : s.Sound) (hapart : keepsApart s e = true)
    (h : machine.step s e = some s') : Passes s s' := by
  cases e with
  | uploadUrl chat user name =>
    obtain ⟨hfresh, h⟩ := Option.ite_none_right_eq_some.1 h
    exact Option.some.inj h ▸ passes_uploadUrl hs hfresh
  | put key =>
    obtain ⟨-, h⟩ := Option.ite_none_right_eq_some.1 h
    exact Option.some.inj h ▸ passes_put hs
  | send chat user mediaPath attachmentKeys => exact Option.some.inj h ▸ passes_send hs hapart
  | burn id =>
    exact Option.some.inj h ▸ hs.statement (sheds_deleteMessages s _) rfl rfl
  | deleteMessage id =>
    obtain rfl := Option.some.inj h
    split_ifs
    · exact hs.spawn trivial
    · exact hs.refl
  | deleteChat chat => exact Option.some.inj h ▸ hs.spawn trivial
  | runMediaRetentionPurge retentionMs limit => exact Option.some.inj h ▸ hs.spawn trivial
  | runOrphanAttachmentCleanup maxAgeMs maxToDelete => exact Option.some.inj h ▸ hs.spawn trivial
  | resume i =>
    obtain ⟨t, hi, h⟩ := Option.bind_eq_some_iff.1 h
    exact passes_execute hs hi h
  | fail i =>
    obtain ⟨t, hi, rfl⟩ := Option.map_eq_some_iff.1 h
    exact passes_fail hs hi hapart
  | deleteObject i key =>
    rw [machine] at h
    dsimp only at h
    split at h
    · rename_i keys hi
      obtain ⟨hkey, h⟩ := Option.ite_none_right_eq_some.1 h
      exact Option.some.inj h ▸ passes_deleteObject hs hi hkey
    · exact absurd h.symm (Option.some_ne_none s')
  | elapse ms => exact Option.some.inj h ▸ hs.statement (.of_eq rfl rfl rfl rfl) rfl rfl

theorem sound_of_reachable (hs : orderly.Reachable s) : s.Sound := by
  refine hs.invariant (fun _ => sound_init) fun s e s' _ hsound hstep => ?_
  obtain ⟨hapart, hstep⟩ := Machine.restrict_step.1 hstep
  exact (passes_step hsound hapart hstep).sound

namespace Sample

def key : Key := ⟨0, 0, 0⟩
def otherKey : Key := ⟨0, 0, 1⟩

def start : State := ⟨fun _ => none, 0, fun _ => none, [], fun _ => false, 0, .empty⟩

/-- Two messages, each with an object of its own. -/
def apart : List Event :=
  [.uploadUrl 0 0 0, .put key, .uploadUrl 0 0 1, .put otherKey, .send 0 0 (some ⟨key, 0⟩) [],
    .send 0 0 (some ⟨otherKey, 0⟩) []]

/-- Two messages with one object, as when a message is sent again. -/
def shared : List Event :=
  [.uploadUrl 0 0 0, .put key, .send 0 0 (some ⟨key, 0⟩) [], .send 0 0 (some ⟨key, 0⟩) []]

end Sample

open Sample

end OneToThree.MessageMedia
