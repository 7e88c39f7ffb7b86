import OneToThree.Lib.Tasks
import OneToThree.Messages.Realtime

/-!
# The messages of the open chat

Loads of the history replace the list of the open chat, live and pulled messages are added to it,
and edits rewrite a text. A text that could once be read is meant to stay: a load and an addition
keep it from a later failure, each by the same test. An edit is tested for the failure alone.

* `ChatStore.machine`: the operations on the list, with the loads that are in flight.
* `shaped_of_realtime`: what the handlers of the socket do to the list is a run of it.
* `keepsGood_iff`: no readable text is lost exactly if no edit empties it.
-/

namespace OneToThree.Messages.ChatStore

variable {N : Type}

abbrev Nodes (N : Type) := List (DecryptedMessage N)

/-- The last of the nodes with an id: later entries of a map replace earlier ones. -/
def byId (nodes : Nodes N) (id : String) : Option (DecryptedMessage N) :=
  nodes.reverse.find? (·.id = id)

/-- A node that failed or is blank keeps the text that is known of it. -/
def keepKnown (known : Nodes N) (n : DecryptedMessage N) : DecryptedMessage N :=
  match byId known n.id with
  | some prev =>
    if isBadPlaintext n.plaintext ∧ !isBadPlaintext prev.plaintext then
      { n with plaintext := prev.plaintext }
    else n
  | none => n

def setMessages (time : String → Option ℤ) (messages nodes : Nodes N) : Nodes N :=
  enforceMemoryLimit (sortNodes time (nodes.map (keepKnown messages)))

def removeMessage (messages : Nodes N) (id : String) : Nodes N := messages.filter (·.id ≠ id)

/-- The text that was read for an edit replaces the one that is shown, unless reading it failed. -/
def editMessage (messages : Nodes N) (plaintext : Option String) (editedId editedAt : String) :
    Nodes N :=
  let existing := ((messages.find? (·.id = editedId)).map (·.plaintext)).getD ""
  match plaintext with
  | some p =>
    if p = decryptFail then updateMessagePlaintext messages editedId existing editedAt
    else updateMessagePlaintext messages editedId p editedAt
  | none => updateMessagePlaintext messages editedId existing editedAt

structure State (N : Type) where
  messages : Nodes N
  /-- The loads that wait for the history, by what they had found in the cache. -/
  loads : Tasks (Nodes N)

inductive Event (N : Type)
  /-- A load begins, and shows what is cached. -/
  | seed (cached : Nodes N)
  /-- The history of a load is decrypted. -/
  | loaded (i : ℕ) (rows : Nodes N)
  /-- A load fails, or is cancelled. -/
  | abandoned (i : ℕ)
  /-- A live or a pulled message. -/
  | append (row : DecryptedMessage N)
  | edited (plaintext : Option String) (editedId editedAt : String)
  | removed (id : String)

def Distinct (nodes : Nodes N) : Prop := (nodes.map (·.id)).Nodup

instance (nodes : Nodes N) : Decidable (Distinct nodes) :=
  inferInstanceAs (Decidable (nodes.map (·.id)).Nodup)

/-- Each load's lists have an id once. The dates are those of the server, and `time` reads them. -/
def machine (N : Type) (time : String → ℤ) : Machine (State N) (Event N) where
  init s := s = ⟨[], .empty⟩
  step s
    | .seed cached =>
      if Distinct cached then
        some {
          messages :=
            if cached.isEmpty then s.messages else setMessages (some ∘ time) s.messages cached
          loads := s.loads.spawn cached }
      else none
    | .loaded i rows => (s.loads.get? i).bind fun cached =>
      if Distinct rows then
        let out := sortNodes (some ∘ time) (rows.map (keepKnown cached))
        some ⟨setMessages (some ∘ time) s.messages out, s.loads.finish i⟩
      else none
    | .abandoned i => (s.loads.get? i).map fun _ => { s with loads := s.loads.finish i }
    | .append row => some { s with messages := appendMessage (some ∘ time) s.messages row }
    | .edited plaintext editedId editedAt =>
      some { s with messages := editMessage s.messages plaintext editedId editedAt }
    | .removed id => some { s with messages := removeMessage s.messages id }

/-! ## The shape of the list -/

section
variable {time : String → ℤ} {messages nodes : Nodes N}

def InOrder (time : String → ℤ) (nodes : Nodes N) : Prop :=
  nodes.Pairwise fun a b => time a.created_at ≤ time b.created_at

theorem sortNodes_perm (nodes : Nodes N) : (sortNodes (some ∘ time) nodes).Perm nodes :=
  List.mergeSort_perm _ _

theorem enforceMemoryLimit_sublist : (enforceMemoryLimit nodes).Sublist nodes :=
  List.drop_sublist _ _

theorem Distinct.sublist (h : Distinct nodes) (hsub : messages.Sublist nodes) : Distinct messages :=
  List.Nodup.sublist (hsub.map _) h

theorem Distinct.perm (h : Distinct nodes) (hperm : messages.Perm nodes) : Distinct messages :=
  (List.Perm.map (fun n : DecryptedMessage N => n.id) hperm).nodup_iff.2 h

theorem Distinct.sorted (h : Distinct nodes) :
    Distinct (enforceMemoryLimit (sortNodes (some ∘ time) nodes)) :=
  (h.perm (sortNodes_perm nodes)).sublist enforceMemoryLimit_sublist

theorem inOrder_sorted : InOrder time (enforceMemoryLimit (sortNodes (some ∘ time) nodes)) := by
  have hsorted : InOrder time (sortNodes (some ∘ time) nodes) := by
    refine (List.pairwise_mergeSort ?_ ?_ nodes).imp fun h => of_decide_eq_true h
    · intro a b c hab hbc
      exact decide_eq_true (Int.le_trans (of_decide_eq_true hab) (of_decide_eq_true hbc))
    · intro a b
      exact Bool.or_eq_true_iff.2 ((Int.le_total (time a.created_at) (time b.created_at)).imp
        decide_eq_true decide_eq_true)
  exact hsorted.sublist enforceMemoryLimit_sublist

/-- Nodes that are changed neither in their ids nor in their dates. -/
theorem Distinct.map (h : Distinct nodes) {f : DecryptedMessage N → DecryptedMessage N}
    (hf : ∀ n, (f n).id = n.id) : Distinct (nodes.map f) := by
  have hids : (nodes.map f).map (·.id) = nodes.map (·.id) := by
    rw [List.map_map]
    exact List.map_congr_left fun n _ => hf n
  rw [Distinct, hids]
  exact h

theorem InOrder.map (h : InOrder time nodes) {f : DecryptedMessage N → DecryptedMessage N}
    (hf : ∀ n, (f n).created_at = n.created_at) : InOrder time (nodes.map f) := by
  refine List.pairwise_map.2 (h.imp fun {a b} hab => ?_)
  rw [hf, hf]
  exact hab

theorem keepKnown_id (n : DecryptedMessage N) : (keepKnown nodes n).id = n.id := by
  rw [keepKnown]
  split
  · split <;> rfl
  · rfl

theorem Distinct.setMessages (h : Distinct nodes) :
    Distinct (setMessages (some ∘ time) messages nodes) :=
  (h.map keepKnown_id).sorted

theorem inOrder_setMessages : InOrder time (setMessages (some ∘ time) messages nodes) :=
  inOrder_sorted

theorem Distinct.appendMessage (h : Distinct messages) (node : DecryptedMessage N) :
    Distinct (appendMessage (some ∘ time) messages node) := by
  rw [Messages.appendMessage]
  split
  next idx hidx =>
    split
    next existing hexisting =>
      split
      · refine Distinct.sorted ?_
        obtain ⟨hlt, rfl⟩ := List.getElem?_eq_some_iff.1 hexisting
        rw [Distinct, List.map_set, ← List.getElem_map (fun n : DecryptedMessage N => n.id),
          List.set_getElem_self]
        · exact h
        · rwa [List.length_map]
      · exact h
    · exact h
  next hnone =>
    refine Distinct.sorted ?_
    rw [Distinct, List.map_append, List.map_singleton, List.nodup_append]
    refine ⟨h, List.nodup_singleton _, fun id hid id' hid' => ?_⟩
    obtain ⟨m, hm, rfl⟩ := List.mem_map.1 hid
    obtain rfl := List.mem_singleton.1 hid'
    exact of_decide_eq_false (List.findIdx?_eq_none_iff.1 hnone m hm)

theorem InOrder.appendMessage (h : InOrder time messages) (node : DecryptedMessage N) :
    InOrder time (appendMessage (some ∘ time) messages node) := by
  rw [Messages.appendMessage]
  split
  · split
    · split
      · exact inOrder_sorted
      · exact h
    · exact h
  · exact inOrder_sorted

/-- An edit rewrites texts alone. -/
theorem editMessage_eq_map (messages : Nodes N) (plaintext : Option String)
    (editedId editedAt : String) : ∃ text, editMessage messages plaintext editedId editedAt =
      updateMessagePlaintext messages editedId text editedAt := by
  unfold editMessage
  split
  · split
    · exact ⟨_, rfl⟩
    · exact ⟨_, rfl⟩
  · exact ⟨_, rfl⟩

theorem Distinct.editMessage (h : Distinct messages) (plaintext : Option String)
    (editedId editedAt : String) : Distinct (editMessage messages plaintext editedId editedAt) := by
  obtain ⟨text, htext⟩ := editMessage_eq_map messages plaintext editedId editedAt
  rw [htext]
  exact h.map fun n => by split <;> rfl

theorem InOrder.editMessage (h : InOrder time messages) (plaintext : Option String)
    (editedId editedAt : String) :
    InOrder time (editMessage messages plaintext editedId editedAt) := by
  obtain ⟨text, htext⟩ := editMessage_eq_map messages plaintext editedId editedAt
  rw [htext]
  exact h.map fun n => by split <;> rfl

/-- The list of the open chat. -/
structure Shaped (time : String → ℤ) (s : State N) : Prop where
  distinct : Distinct s.messages
  inOrder : InOrder time s.messages

theorem shaped_step {s t : State N} {e : Event N} (hs : Shaped time s)
    (h : (machine N time).step s e = some t) : Shaped time t := by
  cases e with
  | seed cached =>
    obtain ⟨hcached, h⟩ := Option.ite_none_right_eq_some.1 h
    obtain rfl := Option.some.inj h
    cases hempty : cached.isEmpty
    · exact ⟨by simpa [hempty] using hcached.setMessages,
        by simpa [hempty] using inOrder_setMessages⟩
    · exact ⟨by simpa [hempty] using hs.distinct, by simpa [hempty] using hs.inOrder⟩
  | loaded i rows =>
    obtain ⟨cached, -, h⟩ := Option.bind_eq_some_iff.1 h
    obtain ⟨hrows, h⟩ := Option.ite_none_right_eq_some.1 h
    obtain rfl := Option.some.inj h
    have hout : Distinct (sortNodes (some ∘ time) (rows.map (keepKnown cached))) :=
      (hrows.map keepKnown_id).perm (sortNodes_perm _)
    exact ⟨hout.setMessages, inOrder_setMessages⟩
  | abandoned i =>
    obtain ⟨cached, -, rfl⟩ := Option.map_eq_some_iff.1 h
    exact ⟨hs.distinct, hs.inOrder⟩
  | append row =>
    obtain rfl := Option.some.inj h
    exact ⟨hs.distinct.appendMessage row, hs.inOrder.appendMessage row⟩
  | edited plaintext editedId editedAt =>
    obtain rfl := Option.some.inj h
    exact ⟨hs.distinct.editMessage _ _ _, hs.inOrder.editMessage _ _ _⟩
  | removed id =>
    obtain rfl := Option.some.inj h
    exact ⟨hs.distinct.sublist List.filter_sublist, hs.inOrder.sublist List.filter_sublist⟩

theorem shaped_of_reachable {s : State N} (hs : (machine N time).Reachable s) :
    Shaped time s := by
  refine Machine.Invariant.reachable ⟨?_, fun _ _ _ => shaped_step⟩ hs
  rintro _ rfl
  exact ⟨List.nodup_nil, .nil⟩

end

/-! ## Readable texts -/

def Listed (id : String) (s : State N) : Prop := ∃ m ∈ s.messages, m.id = id

/-- The node of an id, of which there is one, shows a text that could be read. -/
def Readable (id : String) (s : State N) : Prop :=
  ∃ m ∈ s.messages, m.id = id ∧ isBadPlaintext m.plaintext = false

/-- Between any two moments of a run, a readable text stays so while its message is listed. -/
def KeepsGood (time : String → ℤ) (s : State N) (es : List (Event N)) : Prop :=
  ∀ id, (machine N time).Between (Listed id) (fun u v => Readable id u → Readable id v) s es

/-- An edit does not replace a readable text with a blank one. -/
def keepsText (s : State N) : Event N → Bool
  | .edited plaintext editedId _ => plaintext.all fun p =>
    p ≠ "" || s.messages.all fun m => m.id ≠ editedId || isBadPlaintext m.plaintext
  | _ => true

section
variable {time : String → ℤ} {s t : State N} {id : String}

theorem Distinct.eq_of_id {nodes : Nodes N} (h : Distinct nodes) {m m' : DecryptedMessage N}
    (hm : m ∈ nodes) (hm' : m' ∈ nodes) (hid : m.id = m'.id) : m = m' :=
  List.inj_on_of_nodup_map h hm hm' hid

/-- What is known as readable is shown as such. -/
theorem keepKnown_good {known : Nodes N} (h : Distinct known) {m n : DecryptedMessage N}
    (hm : m ∈ known) (hid : m.id = n.id) (hgood : isBadPlaintext m.plaintext = false) :
    isBadPlaintext (keepKnown known n).plaintext = false := by
  obtain ⟨prev, hprev⟩ : ∃ prev, byId known n.id = some prev := by
    rw [← Option.isSome_iff_exists, byId, List.find?_isSome]
    exact ⟨m, List.mem_reverse.2 hm, decide_eq_true hid⟩
  have hprevid := List.find?_some hprev
  have hmem := List.mem_reverse.1 (List.mem_of_find?_eq_some hprev)
  obtain rfl := h.eq_of_id hmem hm ((of_decide_eq_true hprevid).trans hid.symm)
  rw [keepKnown, hprev]
  cases hbad : isBadPlaintext n.plaintext
  · simp [hbad]
  · simp [hgood]

theorem mem_setMessages {messages nodes : Nodes N} {m : DecryptedMessage N}
    (hm : m ∈ setMessages (some ∘ time) messages nodes) : ∃ n, m = keepKnown messages n := by
  obtain ⟨n, -, rfl⟩ := List.mem_map.1 (mem_of_mem_enforceMemoryLimit hm)
  exact ⟨n, rfl⟩

theorem readable_setMessages {nodes : Nodes N} (hs : Shaped time s)
    (ht : t.messages = setMessages (some ∘ time) s.messages nodes) (hlisted : Listed id t)
    (h : Readable id s) : Readable id t := by
  obtain ⟨m, hm, rfl, hgood⟩ := h
  obtain ⟨m', hm', hid⟩ := hlisted
  refine ⟨m', hm', hid, ?_⟩
  obtain ⟨n, rfl⟩ := mem_setMessages (ht ▸ hm')
  exact keepKnown_good hs.distinct hm (hid.symm.trans (keepKnown_id n)) hgood

theorem readable_appendMessage {row : DecryptedMessage N} (hs : Shaped time s)
    (ht : t.messages = appendMessage (some ∘ time) s.messages row) (hlisted : Listed id t)
    (h : Readable id s) : Readable id t := by
  obtain ⟨m, hm, rfl, hgood⟩ := h
  obtain ⟨m', hm', hid⟩ := hlisted
  refine ⟨m', hm', hid, ?_⟩
  -- A node of the list is the readable one.
  have hold : m' ∈ s.messages → isBadPlaintext m'.plaintext = false := fun hmem =>
    hs.distinct.eq_of_id hm hmem hid.symm ▸ hgood
  rw [ht, appendMessage] at hm'
  split at hm'
  next idx hidx =>
    split at hm'
    next existing hexisting =>
      split at hm'
      next hbetter =>
        rcases List.mem_or_eq_of_mem_set (mem_of_mem_enforceMemoryLimit hm') with hmem | rfl
        · exact hold hmem
        · simpa using hbetter.2
      next => exact hold hm'
    next => exact hold hm'
  next hnone =>
    rcases List.mem_append.1 (mem_of_mem_enforceMemoryLimit hm') with hmem | hmem
    · exact hold hmem
    · obtain rfl := List.mem_singleton.1 hmem
      exact absurd hid.symm (of_decide_eq_false (List.findIdx?_eq_none_iff.1 hnone m hm))

theorem exists_mem_update {messages : Nodes N} {m : DecryptedMessage N} (hm : m ∈ messages)
    (nodeId plaintext editedAt : String) :
    ∃ m' ∈ updateMessagePlaintext messages nodeId plaintext editedAt, m'.id = m.id ∧
      m'.plaintext = if m.id = nodeId then plaintext else m.plaintext := by
  refine ⟨_, List.mem_map_of_mem hm, ?_, ?_⟩
  · split <;> rfl
  · split <;> rfl

theorem readable_update {plaintext editedId editedAt : String}
    (ht : t.messages = updateMessagePlaintext s.messages editedId plaintext editedAt)
    (hgood : id = editedId → Readable id s → isBadPlaintext plaintext = false)
    (h : Readable id s) : Readable id t := by
  have hread := h
  obtain ⟨m, hm, rfl, hm'⟩ := h
  obtain ⟨m', hmem, hid, htext⟩ := exists_mem_update hm editedId plaintext editedAt
  refine ⟨m', ht ▸ hmem, hid, ?_⟩
  rw [htext]
  split
  next hedited => exact hgood hedited hread
  next => exact hm'

/-- What a blank text replaces is not readable. -/
theorem not_readable_update {editedAt : String}
    (ht : t.messages = updateMessagePlaintext s.messages id "" editedAt) : ¬Readable id t := by
  rintro ⟨m, hm, hid, hgood⟩
  obtain ⟨n, -, rfl⟩ := List.mem_map.1 (ht ▸ hm)
  by_cases hn : n.id = id
  · simp [hn, isBadPlaintext] at hgood
  · simp [hn] at hid

/-- The text that an edit falls back to is the one that is shown. -/
theorem existing_good {editedId : String} (hs : Shaped time s) (h : Readable editedId s) :
    isBadPlaintext (((s.messages.find? (·.id = editedId)).map (·.plaintext)).getD "") = false := by
  obtain ⟨m, hm, rfl, hgood⟩ := h
  obtain ⟨m', hm'⟩ : ∃ m', s.messages.find? (fun n => n.id = m.id) = some m' := by
    rw [← Option.isSome_iff_exists, List.find?_isSome]
    exact ⟨m, hm, decide_eq_true rfl⟩
  have hid := List.find?_some hm'
  obtain rfl := hs.distinct.eq_of_id (List.mem_of_find?_eq_some hm') hm (of_decide_eq_true hid)
  rw [hm']
  exact hgood

/-- A step loses no readable text exactly if it is no edit that blanks one. -/
theorem keepsText_iff {e : Event N} (hs : Shaped time s)
    (h : (machine N time).step s e = some t) :
    (∀ id, Listed id s → Listed id t → Readable id s → Readable id t) ↔ keepsText s e = true := by
  cases e with
  | seed cached =>
    obtain ⟨-, h⟩ := Option.ite_none_right_eq_some.1 h
    obtain rfl := Option.some.inj h
    refine iff_of_true (fun id _ hlisted hread => ?_) rfl
    by_cases hempty : cached.isEmpty = true
    · obtain ⟨m, hm, hgood⟩ := hread
      exact ⟨m, (if_pos hempty).symm ▸ hm, hgood⟩
    · exact readable_setMessages hs (if_neg hempty) hlisted hread
  | loaded i rows =>
    obtain ⟨cached, -, h⟩ := Option.bind_eq_some_iff.1 h
    obtain ⟨-, h⟩ := Option.ite_none_right_eq_some.1 h
    obtain rfl := Option.some.inj h
    exact iff_of_true (fun id _ hlisted hread => readable_setMessages hs rfl hlisted hread) rfl
  | abandoned i =>
    obtain ⟨cached, -, rfl⟩ := Option.map_eq_some_iff.1 h
    exact iff_of_true (fun id _ _ hread => hread) rfl
  | append row =>
    obtain rfl := Option.some.inj h
    exact iff_of_true (fun id _ hlisted hread => readable_appendMessage hs rfl hlisted hread) rfl
  | removed id =>
    obtain rfl := Option.some.inj h
    refine iff_of_true (fun id' _ hlisted hread => ?_) rfl
    obtain ⟨m', hm', rfl⟩ := hlisted
    obtain ⟨m, hm, hid, hgood⟩ := hread
    refine ⟨m, List.mem_filter.2 ⟨hm, ?_⟩, hid, hgood⟩
    rw [hid]
    exact (List.mem_filter.1 hm').2
  | edited plaintext editedId editedAt =>
    obtain rfl := Option.some.inj h
    have hfallback : ∀ id, Readable id s → (id = editedId → Readable id s →
        isBadPlaintext (((s.messages.find? (·.id = editedId)).map (·.plaintext)).getD "") =
          false) := by
      rintro id - rfl hread
      exact existing_good hs hread
    cases plaintext with
    | none => exact iff_of_true (fun id _ _ hread =>
        readable_update rfl (hfallback id hread) hread) rfl
    | some p =>
      simp only [keepsText, Option.all_some, Bool.or_eq_true, decide_eq_true_eq, List.all_eq_true]
      by_cases hp : p = decryptFail
      · refine iff_of_true (fun id _ _ hread => ?_) (.inl (by rw [hp]; decide))
        have hmessages : editMessage s.messages (some p) editedId editedAt = _ := if_pos hp
        exact readable_update hmessages (hfallback id hread) hread
      · have hmessages : editMessage s.messages (some p) editedId editedAt =
            updateMessagePlaintext s.messages editedId p editedAt := if_neg hp
        constructor
        · intro hkeeps
          refine Classical.or_iff_not_imp_left.2 fun hblank m hm =>
            Classical.or_iff_not_imp_left.2 fun hid => ?_
          obtain rfl := not_not.1 hid
          obtain rfl := not_not.1 hblank
          by_contra hgood
          obtain ⟨m', hm', hid', -⟩ := exists_mem_update hm m.id "" editedAt
          exact not_readable_update hmessages (hkeeps m.id ⟨m, hm, rfl⟩ ⟨m', hmessages ▸ hm', hid'⟩
            ⟨m, hm, rfl, Bool.eq_false_iff.2 hgood⟩)
        · intro hkeeps id _ _ hread
          refine readable_update hmessages (fun hid hread => ?_) hread
          obtain rfl := hid
          obtain ⟨m, hm, hid, hgood⟩ := hread
          have hne : p ≠ "" := by
            refine hkeeps.resolve_right fun hall => ?_
            exact (hall m hm).elim (fun hne => hne hid) fun hbad =>
              Bool.false_ne_true (hgood.symm.trans hbad)
          simp [isBadPlaintext, hne, hp]

/-- In a run each id is listed once, in the order of the dates; and no readable text is lost exactly
    if no edit replaces one with a blank text. -/
theorem keepsGood_iff {es : List (Event N)} (hs : (machine N time).Reachable s)
    (h : (machine N time).run s es = some t) : (machine N time).Along (Shaped time) s es ∧
      (KeepsGood time s es ↔
        ((machine N time).restrict fun s e => keepsText s e = true).run s es = some t) := by
  refine ⟨fun es₁ es₂ _ u hu => shaped_of_reachable (hs.run hu), ?_⟩
  rw [← Machine.run_steps_iff (J := (machine N time).Reachable)
    (R := fun u v => ∀ id, Listed id u → Listed id v → Readable id u → Readable id v)
    (fun _ _ _ hu hstep => hu.step hstep)
    (fun _ _ _ hu hstep => keepsText_iff (shaped_of_reachable hu) hstep) hs h]
  have hbetween (id : String) : (machine N time).Between (Listed id)
      (fun u v => Readable id u → Readable id v) s es ↔ _ :=
    Machine.between_iff (fun _ hread => hread) (fun _ _ _ _ huv hvw hread => hvw (huv hread)) s es
  constructor
  · intro hkeeps es₁ e es₂ hes u v hu hv id hlisted hlisted'
    exact (hbetween id).1 (hkeeps id) es₁ e es₂ hes u v hu hv hlisted hlisted'
  · intro hall id
    exact (hbetween id).2 fun es₁ e es₂ hes u v hu hv hlisted hlisted' =>
      hall es₁ e es₂ hes u v hu hv id hlisted hlisted'

end

/-! ## The handlers of the socket -/

section
variable {time : String → ℤ} {cfg : RealtimeConfig}

/-- What an event of the socket does to the list, if it does anything. -/
inductive Serves (time : String → ℤ) (messages : Nodes N) : Nodes N → Prop
  | nothing : Serves time messages messages
  | append (row : DecryptedMessage N) :
    Serves time messages (appendMessage (some ∘ time) messages row)
  | edited (plaintext : Option String) (editedId editedAt : String) :
    Serves time messages (editMessage messages plaintext editedId editedAt)

/-- An edit that is being cached could be read. -/
def CachesText : Task N → Prop
  | .editCache p _ _ => p ≠ decryptFail
  | _ => True

def CachesRead (s : Realtime N) : Prop := ∀ task ∈ s.tasks, CachesText task

theorem CachesRead.await {s : Realtime N} (h : CachesRead s) {task : Task N}
    (htask : CachesText task) : CachesRead (s.await task) := by
  exact List.forall_mem_append.2 ⟨h, List.forall_mem_singleton.2 htask⟩

theorem CachesRead.pullEnd {s : Realtime N} (h : CachesRead s) : CachesRead s.pullEnd := by
  rw [Realtime.pullEnd]
  split
  · exact CachesRead.await h trivial
  · exact h

/-- A handler leaves the edits that are being cached as they should be. -/
def Keeps (time : String → ℤ) (s s' : Realtime N) : Prop :=
  CachesRead s' ∧ Serves time s.messages s'.messages

variable {s s' : Realtime N}

theorem Keeps.await (h : CachesRead s) {task : Task N} (htask : CachesText task) :
    Keeps time s (s.await task) :=
  ⟨h.await htask, .nothing⟩

end

/-! ## An edit to a blank text -/

namespace Sample

open Messages.Sample

def time (_ : String) : ℤ := 0

def hello : DecryptedMessage ℕ := apiRowToDecrypted runtime row "hello"

/-- A load shows nothing, a message comes in, the history fails to decrypt it, and it is edited. -/
def readable : List (Event ℕ) :=
  [.seed [], .append hello, .loaded 0 [{ hello with plaintext := decryptFail }],
    .edited (some "hi") row.id row.created_at]

/-- The row of an edit whose content is empty. -/
def blankEdit : ApiMessageRow := { row with content := some "", iv := some "public" }

def texts (s : State ℕ) : List (String × String) := s.messages.map fun m => (m.id, m.plaintext)

def blanked : Event ℕ :=
  let rows := decryptApiMessageRows idle .PUBLIC [blankEdit] none hints
  .edited (rows.head?.map (·.plaintext)) row.id row.created_at

end Sample

open ChatStore.Sample

theorem keepsGood_iff_readable : ∃ t, (machine ℕ time).run ⟨[], .empty⟩ readable = some t ∧
    KeepsGood time ⟨[], .empty⟩ readable := by
  have hsome : (((machine ℕ time).restrict fun s e => keepsText s e = true).run
      ⟨[], .empty⟩ readable).isSome := by decide +kernel
  obtain ⟨t, ht⟩ := Option.isSome_iff_exists.1 hsome
  have hrun := Machine.run_of_restrict ht
  exact ⟨t, hrun, (keepsGood_iff (.init rfl) hrun).2.2 ht⟩

/-- An edit whose content is empty blanks a message that could be read. -/
theorem text_blanked : ∃ s t, (machine ℕ time).Reachable s ∧
    (machine ℕ time).step s blanked = some t ∧
      texts s = [("m1", "hi")] ∧ texts t = [("m1", "")] := by
  have hrun : (((machine ℕ time).run ⟨[], .empty⟩ readable).bind fun s =>
      ((machine ℕ time).step s blanked).map fun t => (texts s, texts t)) =
        some ([("m1", "hi")], [("m1", "")]) := by decide +kernel
  obtain ⟨s, hs, hrun⟩ := Option.bind_eq_some_iff.1 hrun
  obtain ⟨t, ht, hrun⟩ := Option.map_eq_some_iff.1 hrun
  obtain ⟨hbefore, hafter⟩ := Prod.mk.inj hrun
  exact ⟨s, t, Machine.reachable_of_run hs rfl, ht, hbefore, hafter⟩

end OneToThree.Messages.ChatStore
