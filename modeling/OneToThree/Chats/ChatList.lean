import OneToThree.Lib.Machine
import OneToThree.Lib.Tasks

/-!
# The client's lists of chats

Two instances of a hook hold the list of chats, each for itself. A response to a reload replaces the
list of its instance, and the event of a rotation writes the new epoch into both lists. Which
response is the newest is known to all instances, but only the unread counters ask for it.

* `ChatList.machine`: the server's memberships and epochs, reloads in flight, events on their way.
* `neverBack_iff`: no epoch goes back exactly if no response and no event is applied that is older
  than what the list holds.
-/

namespace OneToThree.ChatList

abbrev ChatId := ℕ

/-- Where the hook is mounted. -/
inductive Instance
  | sidebar
  | chatApp
  deriving DecidableEq

structure ApiChatRow where
  id : ChatId
  keyEpoch : ℕ
  deriving DecidableEq

/-- A reload in flight, with its response once the server has read it. -/
structure Reload where
  inst : Instance
  generation : ℕ
  rows : Option (List ApiChatRow)

structure State where
  /-- The chats that the user is a member of. -/
  members : List ChatId
  epochs : ChatId → ℕ
  chats : Instance → List ApiChatRow
  reloads : Tasks Reload
  chatListGeneration : ℕ
  chatListApplied : ℕ
  /-- The events `group_key_epoch` on their way. -/
  announced : List (ChatId × ℕ)

inductive Event
  /-- The user becomes a member of a chat, and no longer is one. -/
  | join (chat : ChatId)
  | leave (chat : ChatId)
  /-- The server bumps the epoch of a chat, and announces it to its members. -/
  | rotate (chat : ChatId)
  | reload (inst : Instance)
  /-- The server reads the list for a reload. -/
  | read (i : ℕ)
  | respond (i : ℕ)
  | fail (i : ℕ)
  /-- An announcement comes in, or is lost. -/
  | groupKeyEpoch (n : ℕ)
  | lose (n : ℕ)

/-- The epoch of a chat by a list of rows. -/
def epochIn (rows : List ApiChatRow) (chat : ChatId) : Option ℕ :=
  (rows.find? fun row => row.id = chat).map (·.keyEpoch)

namespace State

/-- The epoch that an instance holds for a chat. -/
def keyEpoch (s : State) (inst : Instance) (chat : ChatId) : Option ℕ :=
  epochIn (s.chats inst) chat

def start (members : List ChatId) (epochs : ChatId → ℕ) : State :=
  ⟨members, epochs, fun _ => [], .empty, 0, 0, []⟩

/-- The list that the server reads. -/
def currentRows (s : State) : List ApiChatRow :=
  s.members.map fun chat => ⟨chat, s.epochs chat⟩

def rotate (s : State) (chat : ChatId) : State :=
  { s with
    epochs := fun c => if c = chat then s.epochs c + 1 else s.epochs c
    announced := if chat ∈ s.members then s.announced ++ [(chat, s.epochs chat + 1)]
      else s.announced }

def reload (s : State) (inst : Instance) : State :=
  { s with
    reloads := s.reloads.spawn ⟨inst, s.chatListGeneration + 1, none⟩
    chatListGeneration := s.chatListGeneration + 1 }

/-- The list is replaced; the newest response alone counts as the authoritative one. -/
def respond (s : State) (i : ℕ) (inst : Instance) (generation : ℕ) (rows : List ApiChatRow) :
    State :=
  { s with
    chats := fun inst' => if inst' = inst then rows else s.chats inst'
    reloads := s.reloads.finish i
    chatListApplied := if s.chatListApplied < generation then generation else s.chatListApplied }

def groupKeyEpoch (s : State) (n : ℕ) (chat : ChatId) (epoch : ℕ) : State :=
  { s with
    chats := fun inst => (s.chats inst).map fun row =>
      if row.id = chat then { row with keyEpoch := epoch } else row
    announced := s.announced.eraseIdx n }

end State

def machine : Machine State Event where
  init s := ∃ members epochs, s = .start members epochs
  step s
    | .join chat => some { s with
        members := if chat ∈ s.members then s.members else s.members ++ [chat] }
    | .leave chat => some { s with members := s.members.filter (· ≠ chat) }
    | .rotate chat => some (s.rotate chat)
    | .reload inst => some (s.reload inst)
    | .read i => (s.reloads.get? i).bind fun r =>
      if r.rows = none then
        some { s with reloads := s.reloads.goOn i { r with rows := some s.currentRows } }
      else none
    | .respond i => (s.reloads.get? i).bind fun r =>
      r.rows.map fun rows => s.respond i r.inst r.generation rows
    | .fail i => (s.reloads.get? i).map fun _ => { s with reloads := s.reloads.finish i }
    | .groupKeyEpoch n => (s.announced[n]?).map fun x => s.groupKeyEpoch n x.1 x.2
    | .lose n => (s.announced[n]?).map fun _ => { s with announced := s.announced.eraseIdx n }

/-! ## Never back -/

/-- What an instance holds for a chat of the user is not lower afterwards, and is not lost. -/
def Forward (s t : State) : Prop :=
  ∀ inst chat e, chat ∈ s.members → chat ∈ t.members → s.keyEpoch inst chat = some e →
    ∃ e', t.keyEpoch inst chat = some e' ∧ e ≤ e'

/-- The user is a member of the chat all along a run. -/
def StaysMember (s : State) (es : List Event) (chat : ChatId) : Prop :=
  ∀ es₁ es₂, es = es₁ ++ es₂ → ∀ u, machine.run s es₁ = some u → chat ∈ u.members

/-- Between any two moments of a run, what an instance holds for a chat does not go back while the
    user is a member of it. -/
def NeverBack (s : State) (es : List Event) : Prop :=
  ∀ es₁ es₂ es₃, es = es₁ ++ (es₂ ++ es₃) → ∀ u v, machine.run s es₁ = some u →
    machine.run u es₂ = some v → ∀ inst chat e, StaysMember u es₂ chat →
      u.keyEpoch inst chat = some e → ∃ e', v.keyEpoch inst chat = some e' ∧ e ≤ e'

/-- A response has every chat of the user that the list holds, at no older epoch. -/
def State.isCovered (s : State) (inst : Instance) (rows : List ApiChatRow) : Bool :=
  (s.chats inst).all fun row => row.id ∉ s.members ||
    (s.keyEpoch inst row.id).all fun e => (epochIn rows row.id).any (e ≤ ·)

/-- No response is applied that is older than what the list holds, and no event either. -/
def isNewer (s : State) : Event → Bool
  | .respond i => (s.reloads.get? i).all fun r => r.rows.all (s.isCovered r.inst)
  | .groupKeyEpoch n => (s.announced[n]?).all fun x => x.1 ∉ s.members ||
    [Instance.sidebar, .chatApp].all fun inst => (s.keyEpoch inst x.1).all (· ≤ x.2)
  | _ => true

theorem epochIn_isSome {rows : List ApiChatRow} {chat : ChatId} {e : ℕ}
    (h : epochIn rows chat = some e) : ∃ row ∈ rows, row.id = chat := by
  obtain ⟨row, hrow, -⟩ := Option.map_eq_some_iff.1 h
  have hid := List.find?_some hrow
  exact ⟨row, List.mem_of_find?_eq_some hrow, of_decide_eq_true hid⟩

theorem isCovered_iff {s : State} {inst : Instance} {rows : List ApiChatRow} :
    s.isCovered inst rows = true ↔ ∀ chat e, chat ∈ s.members →
      s.keyEpoch inst chat = some e → ∃ e', epochIn rows chat = some e' ∧ e ≤ e' := by
  simp only [State.isCovered, List.all_eq_true, Bool.or_eq_true, decide_eq_true_eq,
    Option.all_eq_true, Option.any_eq_true]
  constructor
  · intro h chat e hmember he
    obtain ⟨row, hrow, rfl⟩ := epochIn_isSome he
    exact (h row hrow).resolve_left (fun hnot => hnot hmember) e he
  · intro h row _
    by_cases hmember : row.id ∈ s.members
    · exact .inr fun e he => h row.id e hmember he
    · exact .inl hmember

/-- An event writes its epoch where the chat is on the list. -/
theorem keyEpoch_groupKeyEpoch {s : State} {n : ℕ} {chat : ChatId} {epoch : ℕ} {inst : Instance}
    {chat' : ChatId} : (s.groupKeyEpoch n chat epoch).keyEpoch inst chat' =
      if chat' = chat then (s.keyEpoch inst chat').map fun _ => epoch
      else s.keyEpoch inst chat' := by
  have hfind : ∀ rows : List ApiChatRow, epochIn (rows.map fun row =>
      if row.id = chat then { row with keyEpoch := epoch } else row) chat' =
      if chat' = chat then (epochIn rows chat').map fun _ => epoch else epochIn rows chat' := by
    intro rows
    have hid : ((fun row : ApiChatRow => decide (row.id = chat')) ∘ fun row =>
        if row.id = chat then { row with keyEpoch := epoch } else row) =
        fun row => decide (row.id = chat') := by
      funext row
      dsimp only [Function.comp]
      split_ifs <;> rfl
    rw [epochIn, List.find?_map, hid, epochIn]
    cases hrow : rows.find? fun row => row.id = chat' with
    | none => simp
    | some row =>
      have hfound := List.find?_some hrow
      have hrowid : row.id = chat' := of_decide_eq_true hfound
      by_cases hchat : chat' = chat
      · simp [hrowid, hchat]
      · simp [hrowid, hchat]
  exact hfind (s.chats inst)

/-- A step does not go back exactly if what it applies is not older. -/
theorem forward_iff {s t : State} {e : Event} (h : machine.step s e = some t) :
    Forward s t ↔ isNewer s e = true := by
  have hsame : ∀ {t : State}, t.chats = s.chats → Forward s t := by
    intro t ht inst chat e _ _ he
    refine ⟨e, ?_, Nat.le_refl e⟩
    rw [State.keyEpoch, ht]
    exact he
  cases e with
  | join chat => exact iff_of_true (Option.some.inj h ▸ hsame rfl) rfl
  | leave chat => exact iff_of_true (Option.some.inj h ▸ hsame rfl) rfl
  | rotate chat => exact iff_of_true (Option.some.inj h ▸ hsame rfl) rfl
  | reload inst => exact iff_of_true (Option.some.inj h ▸ hsame rfl) rfl
  | read i =>
    obtain ⟨r, -, h⟩ := Option.bind_eq_some_iff.1 h
    obtain ⟨-, h⟩ := Option.ite_none_right_eq_some.1 h
    exact iff_of_true (Option.some.inj h ▸ hsame rfl) rfl
  | fail i =>
    obtain ⟨r, -, rfl⟩ := Option.map_eq_some_iff.1 h
    exact iff_of_true (hsame rfl) rfl
  | lose n =>
    obtain ⟨x, -, rfl⟩ := Option.map_eq_some_iff.1 h
    exact iff_of_true (hsame rfl) rfl
  | respond i =>
    obtain ⟨r, hr, h⟩ := Option.bind_eq_some_iff.1 h
    obtain ⟨rows, hrows, rfl⟩ := Option.map_eq_some_iff.1 h
    simp only [isNewer, hr, Option.all_some, hrows]
    rw [isCovered_iff]
    constructor
    · intro hforward chat e hmember he
      obtain ⟨e', he', hle⟩ := hforward r.inst chat e hmember hmember he
      exact ⟨e', by simpa [State.keyEpoch, State.respond] using he', hle⟩
    · intro hcovered inst chat e hmember _ he
      by_cases hinst : inst = r.inst
      · subst hinst
        obtain ⟨e', he', hle⟩ := hcovered chat e hmember he
        exact ⟨e', by simpa [State.keyEpoch, State.respond] using he', hle⟩
      · refine ⟨e, ?_, Nat.le_refl e⟩
        simpa [State.keyEpoch, State.respond, hinst] using he
  | groupKeyEpoch n =>
    obtain ⟨⟨chat, epoch⟩, hx, rfl⟩ := Option.map_eq_some_iff.1 h
    simp only [isNewer, hx, Option.all_some, Bool.or_eq_true, decide_eq_true_eq,
      List.all_eq_true, Option.all_eq_true]
    constructor
    · intro hforward
      by_cases hmember : chat ∈ s.members
      · refine .inr fun inst _ e he => ?_
        obtain ⟨e', he', hle⟩ := hforward inst chat e hmember hmember he
        rw [keyEpoch_groupKeyEpoch, if_pos rfl, he, Option.map_some, Option.some.injEq] at he'
        exact he' ▸ hle
      · exact .inl hmember
    · intro hnewer inst chat' e hmember _ he
      rw [keyEpoch_groupKeyEpoch]
      split_ifs with hchat
      · subst hchat
        refine ⟨epoch, by rw [he, Option.map_some], ?_⟩
        have hle := hnewer.resolve_left fun hnot => hnot hmember
        exact hle inst (by cases inst <;> simp) e he
      · exact ⟨e, he, Nat.le_refl e⟩

/-- In a run, no epoch that is held goes back exactly if no response and no event is applied that
    is older than what is held. -/
theorem neverBack_iff {es : List Event} {s t : State} (h : machine.run s es = some t) :
    NeverBack s es ↔ (machine.restrict fun s e => isNewer s e = true).run s es = some t := by
  rw [← Machine.run_steps_iff (J := fun _ => True) (R := Forward) (fun _ _ _ _ _ => trivial)
    (fun _ _ _ _ hstep => forward_iff hstep) trivial h]
  let R (inst : Instance) (chat : ChatId) (u v : State) : Prop :=
    ∀ e, u.keyEpoch inst chat = some e → ∃ e', v.keyEpoch inst chat = some e' ∧ e ≤ e'
  have hrefl : ∀ inst chat u, R inst chat u u := fun _ _ _ e he => ⟨e, he, Nat.le_refl e⟩
  have htrans : ∀ inst chat u v w, chat ∈ v.members → R inst chat u v → R inst chat v w →
      R inst chat u w := by
    intro inst chat u v w _ huv hvw e he
    obtain ⟨e', he', hle⟩ := huv e he
    obtain ⟨e'', he'', hle'⟩ := hvw e' he'
    exact ⟨e'', he'', Nat.le_trans hle hle'⟩
  have hbetween (inst : Instance) (chat : ChatId) :=
    Machine.between_iff (m := machine) (R := R inst chat) (hrefl inst chat) (htrans inst chat) s es
  constructor
  · intro hnever es₁ e es₂ hes u v hu hv inst chat ep hmember hmember' hep
    refine (hbetween inst chat).1 ?_ es₁ e es₂ hes u v hu hv hmember hmember' ep hep
    exact fun es₁ es₂ es₃ hes u v hu hv halong e he =>
      hnever es₁ es₂ es₃ hes u v hu hv inst chat e halong he
  · intro hall es₁ es₂ es₃ hes u v hu hv inst chat ep halong hep
    refine (hbetween inst chat).2 ?_ es₁ es₂ es₃ hes u v hu hv halong ep hep
    exact fun es₁ e es₂ hes u v hu hv hmember hmember' ep hep =>
      hall es₁ e es₂ hes u v hu hv inst chat ep hmember hmember' hep

/-! ## What the server has just read -/

/-- Nothing that the client holds or is sent is newer than the server. -/
structure Known (s : State) : Prop where
  chats : ∀ inst, ∀ row ∈ s.chats inst, row.keyEpoch ≤ s.epochs row.id
  rows : s.reloads.Every fun r => ∀ rows, r.rows = some rows →
    ∀ row ∈ rows, row.keyEpoch ≤ s.epochs row.id
  announced : ∀ x ∈ s.announced, x.2 ≤ s.epochs x.1

namespace Sample

def chat : ChatId := 0

def start : State := .start [chat] fun _ => 0

/-- A rotation is announced between the reading of a second list and its arrival. -/
def stale : List Event :=
  [.reload .chatApp, .read 0, .respond 0, .reload .chatApp, .read 1, .rotate chat,
    .groupKeyEpoch 0, .respond 1]

def newer : List Event := stale.take 7

end Sample

open Sample

theorem neverBack_iff_newer : ∃ t, machine.run Sample.start newer = some t ∧
    NeverBack Sample.start newer := by
  have hsome : ((machine.restrict fun s e => isNewer s e = true).run Sample.start
      newer).isSome := by decide
  obtain ⟨t, ht⟩ := Option.isSome_iff_exists.1 hsome
  have hrun := Machine.run_of_restrict ht
  exact ⟨t, hrun, (neverBack_iff hrun).2 ht⟩

/-- A stale response hides a rotation that an event had announced. -/
theorem rotation_hidden : ∃ s t, machine.Reachable s ∧ machine.step s (.respond 1) = some t ∧
    chat ∈ s.members ∧ chat ∈ t.members ∧ s.keyEpoch .chatApp chat = some 1 ∧
      t.keyEpoch .chatApp chat = some 0 := by
  have hrun : ((machine.run Sample.start newer).bind fun s => (machine.step s (.respond 1)).map
      fun t => (s.members, t.members, s.keyEpoch .chatApp chat, t.keyEpoch .chatApp chat)) =
        some ([chat], [chat], some 1, some 0) := by decide
  obtain ⟨s, hs, hrun⟩ := Option.bind_eq_some_iff.1 hrun
  obtain ⟨t, ht, hrun⟩ := Option.map_eq_some_iff.1 hrun
  simp only [Prod.mk.injEq] at hrun
  obtain ⟨hmember, hmember', hbefore, hafter⟩ := hrun
  refine ⟨s, t, Machine.reachable_of_run hs ⟨_, _, rfl⟩, ht, ?_, ?_, hbefore, hafter⟩
  · rw [hmember]
    exact List.mem_singleton_self chat
  · rw [hmember']
    exact List.mem_singleton_self chat

end OneToThree.ChatList
