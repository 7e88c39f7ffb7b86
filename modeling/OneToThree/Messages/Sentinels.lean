import OneToThree.Messages.Server

/-!
# Rows that the server has stamped

A client renders a row whose `iv` is a sentinel as trusted text of the server, and it
prefers the `iv` of its slot to the one of the row. The routes refuse a sentinel by name,
but only in the `iv` of the body:

* the `iv` of an element of `ciphertexts` is stored as it comes, on send and on edit;
* an edit may replace the content of a stamped row, whose sender is an ordinary user, and
  leave its `iv` alone.

These are the only ways (`provenance`): along a run without them, every row under a
sentinel has the content that the server wrote, and no slot is under a sentinel.
-/

namespace OneToThree.Messages.Server

/-- A row under a sentinel is as the server has written it, and no slot is under one. -/
structure Message.Genuine (m : Message) : Prop where
  row : ∀ x ∈ m.iv, x ∈ reservedIvSentinels → m.stamped.isSome ∧ m.content = m.stamped
  slots : ∀ d slot, m.slots.get? d = some slot → slot.iv ∉ reservedIvSentinels

/-- Every stored row is genuine. -/
def Db.Provenance (db : Db) : Prop := ∀ id m, db.messages.get? id = some m → m.Genuine

/-- A send whose slots have no sentinel for their `iv`: of several elements for one device,
    the first one is stored. -/
def PersistInput.KeepsOut (input : PersistInput) : Prop :=
  ∀ s ∈ input.deliverySlots, input.deliverySlots.find? (·.deviceId = s.deviceId) = some s →
    s.iv ∉ reservedIvSentinels

/-- An edit of a row that leaves the content of a stamped row alone, or replaces its `iv` as
    well, and puts no sentinel into the `iv` of a slot: of several elements for one
    device, the last one is stored. -/
def Message.KeepsOut (m : Message) (content iv : Option String) (ciphertexts : List BodySlot) :
    Prop :=
  (iv = none → (∃ x ∈ m.iv, x ∈ reservedIvSentinels) → content = none ∨ content = m.content) ∧
  ∀ slot ∈ ciphertexts, m.slots.has slot.device_id →
    ciphertexts.reverse.find? (·.device_id = slot.device_id) = some slot →
    slot.iv ∉ reservedIvSentinels

/-- The statements that bring no sentinel in. -/
def KeepsOut (db : Db) : Statement → Prop
  | .persist input => input.KeepsOut
  | .edit id content iv ciphertexts => ∀ m ∈ db.messages.get? id, m.KeepsOut content iv ciphertexts
  | _ => True

instance (input : PersistInput) : Decidable input.KeepsOut :=
  inferInstanceAs (Decidable (∀ s ∈ input.deliverySlots, _ → _))

instance (m : Message) (content iv : Option String) (ciphertexts : List BodySlot) :
    Decidable (m.KeepsOut content iv ciphertexts) :=
  inferInstanceAs (Decidable ((_ → _ → _) ∧ ∀ slot ∈ ciphertexts, _ → _ → _))

instance (db : Db) : ∀ q : Statement, Decidable (KeepsOut db q)
  | .persist input => inferInstanceAs (Decidable input.KeepsOut)
  | .edit id content iv ciphertexts =>
    inferInstanceAs (Decidable (∀ m ∈ db.messages.get? id, m.KeepsOut content iv ciphertexts))
  | .member _ _ | .memberIds _ | .chatType _ | .isBlocked _ _ | .message _ | .devices _ | .now
  | .pending _ _ _ | .delivered _ _ _ | .stamp _ _ _ _ | .tombstone _ | .delete _ | .become _
  | .elapse _ => isTrue trivial

/-! ## One statement -/

theorem genuine_row {input : PersistInput} {now : ℕ} (hiv : ∀ iv ∈ input.iv, iv ∉ reservedIvSentinels)
    (hok : input.KeepsOut) : (input.row now).Genuine where
  row iv hmem hres := absurd hres (hiv iv hmem)
  slots d slot hget := by
    rw [PersistInput.row, get?_insertSlots] at hget
    obtain ⟨s, hs, rfl⟩ := Option.map_eq_some_iff.1 hget
    have hd : s.deviceId = d := by simpa using List.find?_some hs
    exact hok s (List.mem_of_find?_eq_some hs) (hd.symm ▸ hs)

theorem genuine_stampedRow (chatId : ChatId) (senderId : UserId) (sentinel : Sentinel)
    (content : String) (now : ℕ) : (stampedRow chatId senderId sentinel content now).Genuine where
  row _ _ _ := ⟨rfl, rfl⟩
  slots d _ hget := nomatch (InsMap.get?_empty d).symm.trans hget

theorem Message.Genuine.edit {m : Message} (h : m.Genuine) {content iv : Option String}
    {ciphertexts : List BodySlot} (hiv : ∀ x ∈ iv, x ∉ reservedIvSentinels)
    (hok : m.KeepsOut content iv ciphertexts) (now : ℕ) :
    (m.edit content iv ciphertexts now).Genuine where
  row x hmem hres := by
    cases iv with
    | some y =>
      have hy : y = x := Option.some.inj hmem
      exact absurd hres (hiv x (hy ▸ rfl))
    | none =>
      obtain ⟨hstamped, hcontent⟩ := h.row x hmem hres
      refine ⟨hstamped, Eq.trans ?_ hcontent⟩
      -- The row stays under its sentinel, so the edit carries no other content.
      rw [Message.edit]
      rcases hok.1 rfl ⟨x, hmem, hres⟩ with rfl | rfl
      · rfl
      · cases m.content <;> rfl
  slots d slot hget := by
    rw [Message.edit, get?_updateSlots] at hget
    obtain ⟨stored, hstored, rfl⟩ := Option.map_eq_some_iff.1 hget
    split
    · rename_i given hgiven
      have hd : given.device_id = d := by simpa using List.find?_some hgiven
      subst hd
      exact hok.2 given (List.mem_reverse.1 (List.mem_of_find?_eq_some hgiven))
        (InsMap.has_iff.2 ⟨stored, hstored⟩) hgiven
    · exact h.slots d stored hstored

theorem Message.Genuine.deliver {m : Message} (h : m.Genuine) (userId : UserId)
    (deviceId : DeviceId) (now : ℕ) : (m.deliver userId deviceId now).Genuine := by
  rw [Message.deliver]
  split
  · rename_i slot hslot
    split_ifs
    · refine ⟨h.row, fun d slot' hget => ?_⟩
      rw [InsMap.get?_set] at hget
      split_ifs at hget
      · exact Option.some.inj hget ▸ h.slots deviceId slot hslot
      · exact h.slots d slot' hget
    · exact h
  · exact h

theorem Message.Genuine.redact {m : Message} (h : m.Genuine) (userId : UserId) :
    (m.redact userId).Genuine := by
  rw [Message.redact]
  split_ifs
  · exact ⟨fun _ _ _ => ⟨rfl, rfl⟩, fun d _ hget => nomatch (InsMap.get?_empty d).symm.trans hget⟩
  · exact h

/-- A statement that lets no sentinel in keeps every row genuine. -/
theorem Db.Provenance.answer {db : Db} (h : db.Provenance) {a : Request} {q : Statement}
    (hask : a.MayAsk q) (hok : KeepsOut db q) : (db.answer q).2.Provenance := by
  intro id m' hget
  rcases answer_cases hget with hold | ⟨input, rfl, rfl⟩ | ⟨_, _, _, _, rfl, rfl⟩ |
    ⟨m, hm, ⟨content, iv, ciphertexts, rfl, rfl⟩ | ⟨userId, deviceId, acked, rfl, -, rfl⟩ |
      ⟨userId, rfl, rfl⟩⟩
  · exact h id m' hold
  · exact genuine_row hask.1 hok
  · exact genuine_stampedRow _ _ _ _ _
  · exact (h id m hm).edit hask (hok m hm) _
  · exact (h id m hm).deliver userId deviceId _
  · exact (h id m hm).redact userId

/-! ## Every run -/

variable (parseDate : String → Option ℤ)

/-- Along a run in which no slot comes under a sentinel, and no edit replaces the content
    alone of a stamped row, every row under a sentinel has the content that the server
    wrote, and no slot is under one. -/
theorem provenance {s : Service.State Db Statement Statement.Result Request Reply}
    (hs : (((service parseDate).machine Db.IsInitial).restrict
      (Service.Orderly (fun _ _ => True) KeepsOut)).Reachable s) : s.store.Provenance := by
  refine Service.invariant (I := fun db _ => db.Provenance) (G := fun _ _ => True)
    (P := fun a q _ => a.MayAsk q) ?_ ?_ (handle_mayAsk parseDate) ?_ ?_ hs
  · intro db hdb id m hget
    rw [Db.IsInitial] at hdb
    rw [hdb, InsMap.get?_empty] at hget
    cases hget
  · exact fun _ _ _ _ => trivial
  · exact fun _ _ _ h => ⟨trivial, h⟩
  · exact fun db _ a q _ _ hask hok h => h.answer hask hok

namespace Sample

/-- A missed call of alice is noted, and alice rewrites the note. -/
def rewritten : List (Service.Event Request) :=
  [.receive (.stamp "chat" "alice" .system "call_missed"), .serve 0,
    .receive (.edit alice 0 { content := some "bob has left" }), .serve 1, .serve 1, .serve 1]

/-- Alice sends a message to bob and edits it, and a missed call of hers is noted. -/
def edited : List (Service.Event Request) :=
  sent ++ [.receive (.edit alice 0 { ciphertexts := some [⟨"b1", "y", "nonce'"⟩] }),
    .serve 1, .serve 1, .serve 1, .receive (.stamp "chat" "alice" .system "call_missed"), .serve 2]

end Sample

section
open Server.Sample

/-- The stored note is no longer the server's. -/
theorem note_rewritten : ¬∀ s, ((service fun _ => none).machine Db.IsInitial).Reachable s →
    s.store.Provenance := by
  intro h
  have hrun : ((((service fun _ => none).machine Db.IsInitial).run (.start db) rewritten).bind
      fun s => s.store.messages.get? 0).map (fun m => (m.iv, m.content, m.stamped)) =
        some (some "system:v1", some "bob has left", some "call_missed") := by decide
  obtain ⟨m, hm, hrow⟩ := Option.map_eq_some_iff.1 hrun
  obtain ⟨s, hs, hget⟩ := Option.bind_eq_some_iff.1 hm
  obtain ⟨hiv, hcontent, hstamped⟩ : m.iv = some "system:v1" ∧ m.content = some "bob has left" ∧
    m.stamped = some "call_missed" := by simpa using hrow
  have hgenuine := h s (Machine.reachable_of_run hs ⟨db, rfl, rfl⟩) 0 m hget
  have hsame := (hgenuine.row _ hiv (by decide)).2
  rw [hcontent, hstamped] at hsame
  exact absurd hsame (by decide)

theorem provenance_edited : ∃ s, (((service fun _ => none).machine Db.IsInitial).restrict
    (Service.Orderly (fun _ _ => True) KeepsOut)).run (.start db) edited = some s ∧
    s.store.Provenance := by
  obtain ⟨s, hs, hreachable⟩ := Machine.exists_reachable (by decide :
    ((((service fun _ => none).machine Db.IsInitial).restrict
      (Service.Orderly (fun _ _ => True) KeepsOut)).run (.start db) edited).isSome) ⟨db, rfl, rfl⟩
  exact ⟨s, hs, provenance _ hreachable⟩

end

end OneToThree.Messages.Server
