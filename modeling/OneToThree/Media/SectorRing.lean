import OneToThree.Lib.InsMap
import OneToThree.Lib.Machine

/-!
# The key ring for media

Media of a group are sealed with the group's key of the time. What opens them is the key of the open
chat, or else one of the ring that was registered, when no chat is named, for the chat whose context
was built last.

* `decryptBinaryWithRing` and `setSectorMediaRing`, the cipher being ideal: only the key that sealed
  opens.
* `machine` is the client: the hook that builds the context of the open chat, builds that end after
  another chat was opened, and the contexts that are built to forward a message.
* `media_opens_iff`: all along a run the media of the open chat open under each key of its ring,
  exactly if no context of another group is built while its own is in use, but one whose ring has
  the keys too.
-/

namespace OneToThree.SectorMediaRing

/-- The handle of a key, and the key. Two handles may be of one key. -/
structure CryptoKey (K : Type) where
  handle : ℕ
  raw : K
  deriving DecidableEq

/-- What was sealed: the key, the nonce, and the plain data. -/
structure Ciphertext (K M : Type) where
  key : K
  iv : String
  plain : M

variable {K M : Type}

/-! ## The module -/

structure Registry (K : Type) where
  rings : InsMap String (List (CryptoKey K))
  activeChatId : Option String

namespace Registry

def empty (K : Type) : Registry K := ⟨∅, none⟩

def setSectorMediaRing (r : Registry K) (chatId : String) (ring : List (CryptoKey K)) :
    Registry K :=
  if chatId = "" ∨ ring = [] then r
  else { rings := r.rings.set chatId ring, activeChatId := some chatId }

def getSectorMediaRing (r : Registry K) (chatId : Option String) : List (CryptoKey K) :=
  match chatId.or r.activeChatId with
  | none => []
  | some id => if id = "" then [] else (r.rings.get? id).getD []

variable {r : Registry K} {chatId : String} {ring : List (CryptoKey K)}

theorem setSectorMediaRing_empty : r.setSectorMediaRing "" ring = r := if_pos (.inl rfl)

theorem setSectorMediaRing_of_ne (hchat : chatId ≠ "") (hring : ring ≠ []) :
    r.setSectorMediaRing chatId ring =
      { rings := r.rings.set chatId ring, activeChatId := some chatId } :=
  if_neg (not_or.2 ⟨hchat, hring⟩)

/-- The ring of the chat whose context was built last. -/
theorem getSectorMediaRing_set (hchat : chatId ≠ "") (hring : ring ≠ []) (c : Option String) :
    (r.setSectorMediaRing chatId ring).getSectorMediaRing c =
      if c.getD chatId = chatId then ring else r.getSectorMediaRing c := by
  rw [setSectorMediaRing_of_ne hchat hring]
  cases c with
  | none => simp [getSectorMediaRing, hchat]
  | some c =>
    by_cases hc : c = chatId
    · simp [getSectorMediaRing, hc, hchat]
    · simp [getSectorMediaRing, hc, InsMap.get?_set_ne]

end Registry

variable [DecidableEq K]

def decryptBinary (sharedKey : CryptoKey K) (ciphertext : Ciphertext K M) (iv : String) :
    Option M :=
  if sharedKey.raw = ciphertext.key ∧ iv = ciphertext.iv then some ciphertext.plain else none

/-- Where no key opens, the first error is thrown. -/
def decryptBinaryWithRing (r : Registry K) (sharedKey : CryptoKey K)
    (ciphertext : Ciphertext K M) (iv : String) (chatId : Option String) : Option M :=
  (decryptBinary sharedKey ciphertext iv).or
    ((r.getSectorMediaRing chatId).findSome? fun key =>
      if key = sharedKey then none else decryptBinary key ciphertext iv)

/-! ## The client -/

/-- What a context is built to. -/
inductive Frame (K : Type)
  | sector (groupKey : CryptoKey K) (older : List (CryptoKey K))
  /-- Of a chat between two, or with oneself. -/
  | keyed (key : CryptoKey K)
  /-- Of a public chat, or the build failed. -/
  | keyless

/-- `getAesKeyForChat`. -/
def Frame.key : Frame K → Option (CryptoKey K)
  | sector groupKey _ => some groupKey
  | keyed key => some key
  | keyless => none

/-- The end of a build: a ring is registered. -/
def Frame.register (frame : Frame K) (chatId : String) (r : Registry K) : Registry K :=
  match frame with
  | sector groupKey older => r.setSectorMediaRing chatId (groupKey :: older)
  | keyed _ | keyless => r

/-- A build that the hook of the open chat has begun. -/
structure Build where
  chatId : String
  cancelled : Bool

structure Client (K : Type) where
  registry : Registry K
  openChat : Option String
  /-- The key that the media of the open chat are given, once its context is built. -/
  sharedKey : Option (CryptoKey K)
  builds : List Build

inductive Event (K : Type)
  /-- The hook starts over: a chat was opened or closed, or its keys may have changed. -/
  | effect (chatId : Option String)
  /-- A build of the hook ends. -/
  | built (i : ℕ) (frame : Frame K)
  /-- The context of a chat that a message is forwarded to was built. -/
  | forward (chatId : String) (frame : Frame K)
  | clearAllSectorMediaRings

namespace Client

def start (K : Type) : Client K := ⟨.empty K, none, none, []⟩

def effect (s : Client K) (chatId : Option String) : Client K :=
  { s with
    openChat := chatId
    sharedKey := none
    builds := (s.builds.map fun b => { b with cancelled := true }) ++
      chatId.toList.map fun c => ⟨c, false⟩ }

def built (s : Client K) (i : ℕ) (frame : Frame K) : Option (Client K) :=
  (s.builds[i]?).map fun b => { s with
    registry := frame.register b.chatId s.registry
    sharedKey := if b.cancelled then s.sharedKey else frame.key
    builds := s.builds.eraseIdx i }

def forward (s : Client K) (chatId : String) (frame : Frame K) : Client K :=
  { s with registry := frame.register chatId s.registry }

end Client

def machine (K : Type) [DecidableEq K] : Machine (Client K) (Event K) where
  init s := s = .start K
  step s
    | .effect chatId => some (s.effect chatId)
    | .built i frame => s.built i frame
    | .forward chatId frame => some (s.forward chatId frame)
    | .clearAllSectorMediaRings => some { s with registry := .empty K }

/-! ## The property, and the condition on the steps -/

/-- The media of the open chat open, whichever key of its ring sealed them. -/
def Client.MediaOpens (s : Client K) : Prop :=
  ∀ c sharedKey, s.openChat = some c → s.sharedKey = some sharedKey →
    ∀ key ∈ s.registry.getSectorMediaRing (some c), ∀ (M : Type) (iv : String) (plain : M),
      decryptBinaryWithRing s.registry sharedKey ⟨key.raw, iv, plain⟩ iv none = some plain

/-- Each key of a ring is that of the caller, or in the other ring. -/
def covers (ring : List (CryptoKey K)) (sharedKey : CryptoKey K) (other : List (CryptoKey K)) :
    Bool :=
  ring.all fun key => sharedKey.raw = key.raw || other.any fun key' => key'.raw = key.raw

/-- The ring that is registered is that of the open chat, or has its keys, or the chat has no
    context in use. -/
def Client.keepsOpen (s : Client K) (chatId : String) (ring : List (CryptoKey K)) : Bool :=
  s.openChat.all fun c => s.sharedKey.all fun sharedKey =>
    chatId = "" || chatId = c || covers (s.registry.getSectorMediaRing (some c)) sharedKey ring

def Client.meets (s : Client K) : Event K → Bool
  | .built i (.sector groupKey older) => (s.builds[i]?).all fun b =>
      !b.cancelled || s.keepsOpen b.chatId (groupKey :: older)
  | .built i (.keyed key) => (s.builds[i]?).all fun b => b.cancelled ||
      covers (s.registry.getSectorMediaRing (some b.chatId)) key
        (s.registry.getSectorMediaRing none)
  | .forward chatId (.sector groupKey older) => s.keepsOpen chatId (groupKey :: older)
  | _ => true

/-! ## Rings -/

theorem decryptBinary_eq_some {key : CryptoKey K} {ciphertext : Ciphertext K M} {iv : String}
    {plain : M} (h : decryptBinary key ciphertext iv = some plain) :
    key.raw = ciphertext.key ∧ plain = ciphertext.plain := by
  rw [decryptBinary] at h
  split_ifs at h with hkey
  exact ⟨hkey.1, (Option.some.inj h).symm⟩

/-- What is sealed opens with the caller's key, or else with one of the ring. -/
theorem decryptBinaryWithRing_iff (r : Registry K) (sharedKey : CryptoKey K) (raw : K)
    (iv : String) (plain : M) (chatId : Option String) :
    decryptBinaryWithRing r sharedKey ⟨raw, iv, plain⟩ iv chatId = some plain ↔
      sharedKey.raw = raw ∨ ∃ key ∈ r.getSectorMediaRing chatId, key.raw = raw := by
  have hopen : ∀ key : CryptoKey K, key.raw = raw →
      decryptBinary key (⟨raw, iv, plain⟩ : Ciphertext K M) iv = some plain :=
    fun key hkey => if_pos ⟨hkey, rfl⟩
  rw [decryptBinaryWithRing]
  by_cases hshared : sharedKey.raw = raw
  · rw [hopen sharedKey hshared]
    exact iff_of_true rfl (.inl hshared)
  · have hnone : decryptBinary sharedKey (⟨raw, iv, plain⟩ : Ciphertext K M) iv = none :=
      if_neg fun h => hshared h.1
    rw [hnone, Option.none_or, or_iff_right hshared]
    constructor
    · intro h
      obtain ⟨key, hkey, hsome⟩ := List.exists_of_findSome?_eq_some h
      split_ifs at hsome
      exact ⟨key, hkey, (decryptBinary_eq_some hsome).1⟩
    · rintro ⟨key, hkey, hraw⟩
      have hne : key ≠ sharedKey := fun h => hshared (h ▸ hraw)
      have hsome : ((r.getSectorMediaRing chatId).findSome? fun key =>
          if key = sharedKey then none else
            decryptBinary key (⟨raw, iv, plain⟩ : Ciphertext K M) iv).isSome := by
        rw [List.isSome_findSome?]
        exact List.any_eq_true.2 ⟨key, hkey, by rw [if_neg hne, hopen key hraw]; rfl⟩
      obtain ⟨plain', hplain'⟩ := Option.isSome_iff_exists.1 hsome
      obtain ⟨key', -, hkey'⟩ := List.exists_of_findSome?_eq_some hplain'
      split_ifs at hkey'
      rw [hplain', (decryptBinary_eq_some hkey').2]

theorem covers_iff {ring other : List (CryptoKey K)} {sharedKey : CryptoKey K} :
    covers ring sharedKey other = true ↔
      ∀ key ∈ ring, sharedKey.raw = key.raw ∨ ∃ key' ∈ other, key'.raw = key.raw := by
  simp only [covers, List.all_eq_true, Bool.or_eq_true, decide_eq_true_eq, List.any_eq_true]

theorem covers_self (ring : List (CryptoKey K)) (sharedKey : CryptoKey K) :
    covers ring sharedKey ring = true :=
  covers_iff.2 fun key hkey => .inr ⟨key, hkey, rfl⟩

/-- The media of the open chat open exactly if the ring that is tried has the keys of its own. -/
theorem Client.mediaOpens_iff {s : Client K} : s.MediaOpens ↔
    ∀ c sharedKey, s.openChat = some c → s.sharedKey = some sharedKey →
      covers (s.registry.getSectorMediaRing (some c)) sharedKey
        (s.registry.getSectorMediaRing none) = true := by
  simp only [Client.MediaOpens, covers_iff, decryptBinaryWithRing_iff]
  constructor
  · exact fun h c sharedKey hc hs key hkey => h c sharedKey hc hs key hkey Unit "" ()
  · exact fun h c sharedKey hc hs key hkey _ _ _ => h c sharedKey hc hs key hkey

/-! ## Runs -/

/-- A build that was not cancelled is of the open chat. -/
def Client.Current (s : Client K) : Prop :=
  ∀ b ∈ s.builds, b.cancelled = false → s.openChat = some b.chatId

omit [DecidableEq K] in
theorem Client.Current.effect (s : Client K) (chatId : Option String) :
    (s.effect chatId).Current := by
  intro b hb hlive
  rcases List.mem_append.1 hb with hb | hb
  · obtain ⟨b', -, rfl⟩ := List.mem_map.1 hb
    exact absurd hlive (by simp)
  · obtain ⟨c, hc, rfl⟩ := List.mem_map.1 hb
    exact Option.mem_toList.1 hc

variable {s t : Client K}

theorem Client.Current.step (h : s.Current) {e : Event K} (ht : (machine K).step s e = some t) :
    t.Current := by
  cases e with
  | effect chatId => exact Option.some.inj ht ▸ .effect s chatId
  | built i frame =>
    obtain ⟨b, -, rfl⟩ := Option.map_eq_some_iff.1 ht
    exact fun b hb => h b (List.mem_of_mem_eraseIdx hb)
  | forward chatId frame => exact Option.some.inj ht ▸ h
  | clearAllSectorMediaRings => exact Option.some.inj ht ▸ h

theorem mediaOpens_iff_covers (c : String) (sharedKey : CryptoKey K) (hopen : s.openChat = some c)
    (hs : s.sharedKey = some sharedKey) : s.MediaOpens ↔
      covers (s.registry.getSectorMediaRing (some c)) sharedKey
        (s.registry.getSectorMediaRing none) = true := by
  rw [Client.mediaOpens_iff]
  constructor
  · exact fun h => h c sharedKey hopen hs
  · intro h c' sharedKey' hc' hs'
    obtain rfl := Option.some.inj (hopen.symm.trans hc')
    obtain rfl := Option.some.inj (hs.symm.trans hs')
    exact h

theorem mediaOpens_of_sharedKey (h : t.sharedKey = none) : t.MediaOpens :=
  fun _ sharedKey _ hs => absurd (h.symm.trans hs).symm (Option.some_ne_none sharedKey)

/-- A ring that is registered for the open chat is the one that is tried. -/
theorem covers_registered (r : Registry K) (c : String) {ring : List (CryptoKey K)}
    (hring : ring ≠ []) (sharedKey : CryptoKey K) :
    covers ((r.setSectorMediaRing c ring).getSectorMediaRing (some c)) sharedKey
      ((r.setSectorMediaRing c ring).getSectorMediaRing none) = true := by
  by_cases hc : c = ""
  · rw [hc]
    rfl
  · rw [Registry.getSectorMediaRing_set hc hring, Registry.getSectorMediaRing_set hc hring,
      Option.getD_some, Option.getD_none, if_pos rfl, if_pos rfl]
    exact covers_self ring sharedKey

/-- A ring is registered while a context is in use. -/
theorem mediaOpens_register {chatId : String} {ring : List (CryptoKey K)} (hring : ring ≠ [])
    (h : s.MediaOpens) (ht : t.openChat = s.openChat) (hkey : t.sharedKey = s.sharedKey)
    (hr : t.registry = s.registry.setSectorMediaRing chatId ring) :
    t.MediaOpens ↔ s.keepsOpen chatId ring = true := by
  rw [Client.keepsOpen]
  cases hopen : s.openChat with
  | none =>
    refine iff_of_true (fun c _ hc => ?_) rfl
    exact absurd ((ht.trans hopen).symm.trans hc).symm (Option.some_ne_none c)
  | some c =>
    cases hs : s.sharedKey with
    | none => exact iff_of_true (mediaOpens_of_sharedKey (hkey.trans hs)) rfl
    | some sharedKey =>
      rw [mediaOpens_iff_covers c sharedKey (ht.trans hopen) (hkey.trans hs), hr, Option.all_some,
        Option.all_some, Bool.or_eq_true, Bool.or_eq_true, decide_eq_true_eq, decide_eq_true_eq]
      by_cases hchat : chatId = ""
      · rw [hchat, Registry.setSectorMediaRing_empty]
        exact iff_of_true ((mediaOpens_iff_covers c sharedKey hopen hs).1 h) (.inl (.inl rfl))
      · by_cases hc : chatId = c
        · rw [hc]
          exact iff_of_true (covers_registered _ c hring sharedKey) (.inl (.inr rfl))
        · rw [Registry.getSectorMediaRing_set hchat hring,
            Registry.getSectorMediaRing_set hchat hring, Option.getD_some, Option.getD_none,
            if_pos rfl, if_neg (Ne.symm hc), or_iff_right (not_or.2 ⟨hchat, hc⟩)]

theorem mediaOpens_of_eq (h : s.MediaOpens) (ht : t.openChat = s.openChat)
    (hkey : t.sharedKey = s.sharedKey) (hr : t.registry = s.registry) : t.MediaOpens := by
  rw [Client.mediaOpens_iff] at h ⊢
  rwa [ht, hkey, hr]

/-- The end of a build of the hook. -/
theorem mediaOpens_built (hcurrent : s.Current) (h : s.MediaOpens) {i : ℕ} {frame : Frame K}
    (ht : s.built i frame = some t) : t.MediaOpens ↔ s.meets (.built i frame) = true := by
  obtain ⟨b, hb, rfl⟩ := Option.map_eq_some_iff.1 ht
  cases frame with
  | sector groupKey older =>
    rw [Client.meets, hb, Option.all_some, Bool.or_eq_true, Bool.not_eq_true']
    cases hcancelled : b.cancelled with
    | true =>
      rw [or_iff_right (by decide)]
      exact mediaOpens_register (List.cons_ne_nil _ _) h rfl rfl rfl
    | false =>
      have hopen := hcurrent b (List.mem_of_getElem? hb) hcancelled
      refine iff_of_true (Iff.mpr (mediaOpens_iff_covers b.chatId groupKey ?_ ?_) ?_) (.inl rfl)
      · exact hopen
      · rfl
      · exact covers_registered s.registry b.chatId (List.cons_ne_nil _ _) groupKey
  | keyed key =>
    rw [Client.meets, hb, Option.all_some, Bool.or_eq_true]
    cases hcancelled : b.cancelled with
    | true => exact iff_of_true (mediaOpens_of_eq h rfl rfl rfl) (.inl rfl)
    | false =>
      have hopen := hcurrent b (List.mem_of_getElem? hb) hcancelled
      rw [or_iff_right Bool.false_ne_true]
      exact mediaOpens_iff_covers b.chatId key hopen rfl
  | keyless =>
    refine iff_of_true ?_ rfl
    cases hcancelled : b.cancelled with
    | true => exact mediaOpens_of_eq h rfl rfl rfl
    | false => exact mediaOpens_of_sharedKey rfl

theorem mediaOpens_step (hcurrent : s.Current) (h : s.MediaOpens) {e : Event K}
    (ht : (machine K).step s e = some t) : t.MediaOpens ↔ s.meets e = true := by
  cases e with
  | effect chatId =>
    exact iff_of_true (Option.some.inj ht ▸ mediaOpens_of_sharedKey rfl) rfl
  | built i frame => exact mediaOpens_built hcurrent h ht
  | forward chatId frame =>
    obtain rfl := Option.some.inj ht
    cases frame with
    | sector groupKey older => exact mediaOpens_register (List.cons_ne_nil _ _) h rfl rfl rfl
    | keyed key => exact iff_of_true (mediaOpens_of_eq h rfl rfl rfl) rfl
    | keyless => exact iff_of_true (mediaOpens_of_eq h rfl rfl rfl) rfl
  | clearAllSectorMediaRings =>
    obtain rfl := Option.some.inj ht
    refine iff_of_true (Client.mediaOpens_iff.2 fun c sharedKey _ _ => ?_) rfl
    simp [Registry.getSectorMediaRing, Registry.empty, covers]

/-- **Media of the open chat.** All along a run the media of the open chat, once its context is
    built, open under each key of its ring, exactly if the steps of the run keep its ring the one
    that is tried, or one that is tried has its keys. -/
theorem media_opens_iff {events : List (Event K)} {s : Client K}
    (hrun : (machine K).run (.start K) events = some s) :
    (∀ done rest, events = done ++ rest → ∀ s, (machine K).run (.start K) done = some s →
        s.MediaOpens) ↔
      ((machine K).restrict fun s e => s.meets e = true).run (.start K) events = some s :=
  Machine.run_always_iff (fun _ _ _ h ht => h.step ht)
    (fun _ _ _ hcurrent h ht => mediaOpens_step hcurrent h ht)
    (fun _ hb => absurd hb List.not_mem_nil) (mediaOpens_of_sharedKey rfl) hrun

namespace Sample

/-- A key, by its number. -/
def key (n : ℕ) : CryptoKey ℕ := ⟨n, n⟩

/-- The group is opened, which has rotated its key. -/
def opened : List (Event ℕ) := [.effect (some "pack"), .built 0 (.sector (key 2) [key 1])]

/-- A message is forwarded to another group. -/
def forwarded : List (Event ℕ) := opened ++ [.forward "lair" (.sector (key 3) [])]

end Sample

/-- The media from before the rotation no longer open. -/
theorem forward_closes : ∃ s, (machine ℕ).run (.start ℕ) Sample.forwarded = some s ∧
    s.openChat = some "pack" ∧
    Sample.key 1 ∈ s.registry.getSectorMediaRing (some "pack") ∧ ¬s.MediaOpens := by
  refine ⟨_, rfl, rfl, by decide, fun h => ?_⟩
  have hcovers := (mediaOpens_iff_covers "pack" (Sample.key 2) rfl rfl).1 h
  exact absurd hcovers (by decide)

theorem media_opens_iff_opened : ∃ s, (machine ℕ).run (.start ℕ) Sample.opened = some s ∧
    s.sharedKey = some (Sample.key 2) ∧ s.MediaOpens := by
  have hrun : ∃ s, (machine ℕ).run (.start ℕ) Sample.opened = some s ∧
      s.sharedKey = some (Sample.key 2) ∧
      ((machine ℕ).restrict fun s e => s.meets e = true).run (.start ℕ) Sample.opened = some s :=
    ⟨_, rfl, rfl, rfl⟩
  obtain ⟨s, hs, hkey, hmeets⟩ := hrun
  exact ⟨s, hs, hkey, (media_opens_iff hs).2 hmeets _ [] (List.append_nil _).symm s hs⟩

end OneToThree.SectorMediaRing
