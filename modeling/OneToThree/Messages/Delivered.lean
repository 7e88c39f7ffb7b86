import OneToThree.Messages.Server

/-!
# Edits and acknowledgements

A slot stays in `sync/pending` until its device acknowledges the message. An edit puts a
new ciphertext into the slot and makes it pending again. The acknowledgement only names
the message, though: one that answers a response from before the edit, and comes in after
it, delivers a ciphertext that the device may never have been shown.

That is the only way to lose one (`delivered_of_run`): along a run in which every
acknowledgement finds the ciphertext that it answers, what is delivered to a recipient was
shown to the device, and acknowledged by it.
-/

namespace OneToThree.Messages.Server

/-- A response to `sync/pending` of the device, with this ciphertext in a row. -/
def shows (userId : UserId) (deviceId : DeviceId) (a : Acked) : Request × Reply → Bool
  | (.pending sess _, .pending rows) => sess = ⟨userId, some deviceId⟩ &&
      rows.any fun row => row.id = a.id && row.device_ciphertext = some a.ciphertext
  | _ => false

variable (replies : List (Request × Reply)) (userId : UserId) (deviceId : DeviceId)

/-- A response to `sync/pending` has shown the device a row with this ciphertext. -/
def Shown (a : Acked) : Prop := ∃ x ∈ replies, shows userId deviceId a x

/-- The device has acknowledged a row with this ciphertext. -/
def Acknowledged (a : Acked) : Prop :=
  ∃ x ∈ replies, ∃ acked, x.1 = .delivered ⟨userId, some deviceId⟩ acked ∧ a ∈ acked

instance (a : Acked) : Decidable (Shown replies userId deviceId a) :=
  inferInstanceAs (Decidable (∃ x ∈ replies, shows userId deviceId a x))

/-- A device acknowledges what it was shown. -/
def AcksShown : Request → Prop
  | .delivered sess acked => ∀ deviceId ∈ sess.deviceId, ∀ a ∈ acked,
      Shown replies sess.userId deviceId a
  | _ => True

instance : ∀ a : Request, Decidable (AcksShown replies a)
  | .delivered sess acked => inferInstanceAs (Decidable
      (∀ deviceId ∈ sess.deviceId, ∀ a ∈ acked, Shown replies sess.userId deviceId a))
  | .send _ _ | .edit _ _ _ | .pending _ _ | .stamp _ _ _ _ | .tombstone _ | .delete _
  | .become _ | .elapse _ => isTrue trivial

/-- An acknowledgement is in time if the slots still have the ciphertexts that it answers. -/
def InTime (db : Db) : Statement → Prop
  | .delivered userId deviceId acked => ∀ a ∈ acked, ∀ m ∈ db.messages.get? a.id,
      ∀ slot ∈ m.slots.get? deviceId, slot.userId = userId → slot.ciphertext = a.ciphertext
  | _ => True

instance (db : Db) : ∀ q : Statement, Decidable (InTime db q)
  | .delivered _ deviceId acked => inferInstanceAs (Decidable
      (∀ a ∈ acked, ∀ m ∈ db.messages.get? a.id, ∀ slot ∈ m.slots.get? deviceId, _ → _))
  | .member _ _ | .memberIds _ | .chatType _ | .isBlocked _ _ | .message _ | .devices _ | .now
  | .persist _ | .edit _ _ _ _ | .pending _ _ _ | .stamp _ _ _ _ | .tombstone _ | .delete _
  | .become _ | .elapse _ => isTrue trivial

/-- What is delivered to a device, other than the one that has sent it, was shown to the
    device and acknowledged by it, with the ciphertext that the slot has now. -/
def Message.Delivered (id : MessageId) (m : Message) : Prop :=
  ∀ d slot, m.slots.get? d = some slot → slot.deliveredAt.isSome → m.sentFrom ≠ some d →
    Shown replies slot.userId d ⟨id, slot.ciphertext⟩ ∧
      Acknowledged replies slot.userId d ⟨id, slot.ciphertext⟩

variable {replies userId deviceId}

theorem Shown.append {a : Acked} (h : Shown replies userId deviceId a)
    (replies' : List (Request × Reply)) : Shown (replies ++ replies') userId deviceId a := by
  obtain ⟨x, hx, h⟩ := h
  exact ⟨x, List.mem_append_left _ hx, h⟩

theorem Acknowledged.append {a : Acked} (h : Acknowledged replies userId deviceId a)
    (replies' : List (Request × Reply)) :
    Acknowledged (replies ++ replies') userId deviceId a := by
  obtain ⟨x, hx, h⟩ := h
  exact ⟨x, List.mem_append_left _ hx, h⟩

theorem AcksShown.append {a : Request} (h : AcksShown replies a)
    (replies' : List (Request × Reply)) : AcksShown (replies ++ replies') a := by
  cases a with
  | delivered sess acked => exact fun d hd x hx => (h d hd x hx).append replies'
  | _ => trivial

theorem Message.Delivered.append {id : MessageId} {m : Message} (h : m.Delivered replies id)
    (replies' : List (Request × Reply)) : m.Delivered (replies ++ replies') id :=
  fun d slot hget hdel hfrom =>
    ⟨(h d slot hget hdel hfrom).1.append replies', (h d slot hget hdel hfrom).2.append replies'⟩

theorem delivered_of_no_slots {id : MessageId} {m : Message} (h : m.slots = ∅) :
    m.Delivered replies id := by
  intro d slot hget
  rw [h, InsMap.get?_empty] at hget
  cases hget

/-! ## One statement -/

/-- What a send delivers is the slot of the device that sends. -/
theorem delivered_row {id : MessageId} {input : PersistInput} {now : ℕ}
    (h : ∀ s ∈ input.deliverySlots, s.deliveredAt.isSome → input.callerDeviceId = some s.deviceId) :
    (input.row now).Delivered replies id := by
  intro d slot hget hdel hfrom
  rw [PersistInput.row, get?_insertSlots] at hget
  obtain ⟨s, hs, rfl⟩ := Option.map_eq_some_iff.1 hget
  have hd : s.deviceId = d := by simpa using List.find?_some hs
  exact absurd (hd ▸ h s (List.mem_of_find?_eq_some hs) hdel) hfrom

/-- A slot that an edit has rewritten is pending again. -/
theorem Message.Delivered.edit {id : MessageId} {m : Message} (h : m.Delivered replies id)
    (content iv : Option String) (ciphertexts : List BodySlot) (now : ℕ) :
    (m.edit content iv ciphertexts now).Delivered replies id := by
  intro d slot hget hdel hfrom
  rw [Message.edit, get?_updateSlots] at hget
  obtain ⟨stored, hstored, rfl⟩ := Option.map_eq_some_iff.1 hget
  split at hdel
  · cases hdel
  · exact h d stored hstored hdel hfrom

theorem Message.Delivered.deliver {id : MessageId} {m : Message} (h : m.Delivered replies id)
    (now : ℕ) (hacked : ∀ slot ∈ m.slots.get? deviceId, slot.userId = userId →
      Shown replies userId deviceId ⟨id, slot.ciphertext⟩ ∧
        Acknowledged replies userId deviceId ⟨id, slot.ciphertext⟩) :
    (m.deliver userId deviceId now).Delivered replies id := by
  rw [Message.deliver]
  split
  · rename_i slot hslot
    split_ifs with huser
    · intro d slot' hget hdel hfrom
      rw [InsMap.get?_set] at hget
      split_ifs at hget with hd
      · obtain rfl := Option.some.inj hget
        subst hd
        exact huser ▸ hacked slot hslot huser
      · exact h d slot' hget hdel hfrom
    · exact h
  · exact h

theorem Message.Delivered.redact {id : MessageId} {m : Message} (h : m.Delivered replies id)
    (userId : UserId) : (m.redact userId).Delivered replies id := by
  rw [Message.redact]
  split_ifs
  · exact delivered_of_no_slots rfl
  · exact h

/-- A statement keeps what is delivered shown and acknowledged: `replies'` are the replies
    after it, and an acknowledgement is among them once it is served. -/
theorem Message.Delivered.answer {db : Db} {replies' : List (Request × Reply)} {a : Request}
    {q : Statement} (h : ∀ id m, db.messages.get? id = some m → m.Delivered replies id)
    (hshown : AcksShown replies a) (hask : a.MayAsk q) (hok : InTime db q)
    (hreply : ∀ sess acked, a = .delivered sess acked → ∃ x ∈ replies', x.1 = a) :
    ∀ id m, (db.answer q).2.messages.get? id = some m → m.Delivered (replies ++ replies') id := by
  intro id m' hget
  rcases answer_cases hget with hold | ⟨input, rfl, rfl⟩ | ⟨_, _, _, _, rfl, rfl⟩ |
    ⟨m, hm, ⟨content, iv, ciphertexts, rfl, rfl⟩ | ⟨userId, deviceId, acked, rfl, hmem, rfl⟩ |
      ⟨userId, rfl, rfl⟩⟩
  · exact (h id m' hold).append replies'
  · exact delivered_row hask.2
  · exact delivered_of_no_slots rfl
  · exact ((h id m hm).append replies').edit content iv ciphertexts db.clock
  · obtain ⟨x, hx, rfl⟩ := List.mem_map.1 hmem
    obtain rfl : a = _ := hask
    obtain ⟨y, hy, hya⟩ := hreply _ _ rfl
    refine ((h x.id m hm).append replies').deliver db.clock fun slot hslot huser => ?_
    have hsame : slot.ciphertext = x.ciphertext := hok x hx m hm slot hslot huser
    rw [hsame]
    exact ⟨(hshown deviceId rfl x hx).append replies',
      y, List.mem_append_right _ hy, acked, hya, hx⟩
  · exact ((h id m hm).append replies').redact userId

/-! ## Every run -/

variable (parseDate : String → Option ℤ)

/-- An acknowledgement replies when its statement is served. -/
theorem handle_delivered (a : Request) : (handle parseDate a).Along fun q next =>
    a.MayAsk q ∧ ∀ sess acked, a = .delivered sess acked → ∀ r, ∃ b, next r = .done b := by
  by_cases h : ∃ sess acked, a = .delivered sess acked
  · obtain ⟨sess, acked, rfl⟩ := h
    rw [handle, delivered]
    refine .ite (fun _ => trivial) fun _ => ?_
    rcases sess with ⟨userId, _ | deviceId⟩
    · trivial
    · exact .request ⟨rfl, fun _ _ _ _ => ⟨_, rfl⟩⟩ fun _ => trivial
  · exact (handle_mayAsk parseDate a).imp fun q next hask =>
      ⟨hask, fun sess acked ha => absurd ⟨sess, acked, ha⟩ h⟩

/-- Along a run in which devices acknowledge what they were shown, and every
    acknowledgement is in time, a delivered slot of a recipient has a ciphertext that was
    shown to the device and acknowledged by it. -/
theorem delivered_of_run {s : Service.State Db Statement Statement.Result Request Reply}
    (hs : (((service parseDate).machine Db.IsInitial).restrict
      (Service.Orderly (fun s a => AcksShown s.replies a) InTime)).Reachable s)
    {id : MessageId} {m : Message} (hm : s.store.messages.get? id = some m) :
    m.Delivered s.replies id := by
  refine Service.invariant
    (I := fun db replies => ∀ id m, db.messages.get? id = some m → m.Delivered replies id)
    (G := AcksShown) ?_ ?_ (handle_delivered parseDate) ?_ ?_ hs id m hm
  · intro db hdb id m hget
    rw [Db.IsInitial] at hdb
    rw [hdb, InsMap.get?_empty] at hget
    cases hget
  · exact fun replies replies' a h => h.append replies'
  · exact fun s a ha h => ⟨ha, fun id m hget => (h id m hget).append _⟩
  · intro db replies a q next hshown hP hok h
    refine Message.Delivered.answer h hshown hP.1 hok fun sess acked ha => ?_
    obtain ⟨b, hb⟩ := hP.2 sess acked ha ((db.answer q).1)
    exact ⟨(a, b), by rw [service, hb]; exact List.mem_singleton_self _, rfl⟩

namespace Sample

/-- Bob pulls the message, and alice edits it before bob acknowledges what was pulled. -/
def crossed : List (Service.Event Request) :=
  sent ++ [.receive (.pending bob none), .serve 1,
    .receive (.edit alice 0 { ciphertexts := some [⟨"b1", "y", "nonce'"⟩] }),
    .serve 2, .serve 2, .serve 2, .receive (.delivered bob [⟨0, "x"⟩]), .serve 3]

/-- Bob pulls the edited message again, and acknowledges that. -/
def repulled : List (Service.Event Request) :=
  sent ++ [.receive (.pending bob none), .serve 1,
    .receive (.edit alice 0 { ciphertexts := some [⟨"b1", "y", "nonce'"⟩] }),
    .serve 2, .serve 2, .serve 2, .receive (.pending bob none), .serve 3,
    .receive (.delivered bob [⟨0, "y"⟩]), .serve 4]

end Sample

section
open Server.Sample

/-- The edit is delivered to a device that was never shown it. -/
theorem edit_lost : ¬∀ s, (((service fun _ => none).machine Db.IsInitial).restrict
    (Service.Orderly (fun s a => AcksShown s.replies a) fun _ _ => True)).Reachable s →
    ∀ id m, s.store.messages.get? id = some m → m.Delivered s.replies id := by
  intro h
  have hrun : ((((service fun _ => none).machine Db.IsInitial).restrict
      (Service.Orderly (fun s a => AcksShown s.replies a) fun _ _ => True)).run (.start db)
        crossed).bind (fun s => ((s.store.messages.get? 0).bind fun m =>
          (m.slots.get? "b1").map fun slot => (slot, m.sentFrom)).map fun x =>
            (x, decide (Shown s.replies "bob" "b1" ⟨0, "y"⟩))) =
        some ((⟨"bob", "y", "nonce'", some 0⟩, some "a1"), false) := by decide
  obtain ⟨s, hs, hrow⟩ := Option.bind_eq_some_iff.1 hrun
  obtain ⟨x, hx, hxrow⟩ := Option.map_eq_some_iff.1 hrow
  obtain ⟨m, hm, hslot⟩ := Option.bind_eq_some_iff.1 hx
  obtain ⟨slot, hget, rfl⟩ := Option.map_eq_some_iff.1 hslot
  obtain ⟨⟨rfl, hfrom⟩, hshown⟩ : (slot = ⟨"bob", "y", "nonce'", some 0⟩ ∧ m.sentFrom = some "a1") ∧
    ¬Shown s.replies "bob" "b1" ⟨0, "y"⟩ := by simpa using hxrow
  have hreachable := Machine.reachable_of_run hs ⟨db, rfl, rfl⟩
  refine hshown (h s hreachable 0 m hm "b1" _ hget rfl ?_).1
  rw [hfrom]
  decide

theorem delivered_of_run_repulled :
    ∃ s m, (((service fun _ => none).machine Db.IsInitial).restrict
      (Service.Orderly (fun s a => AcksShown s.replies a) InTime)).run (.start db) repulled =
        some s ∧ s.store.messages.get? 0 = some m ∧ m.Delivered s.replies 0 := by
  obtain ⟨m, hm⟩ := Option.isSome_iff_exists.1 (by decide :
    (((((service fun _ => none).machine Db.IsInitial).restrict
      (Service.Orderly (fun s a => AcksShown s.replies a) InTime)).run (.start db) repulled).bind
        fun s => s.store.messages.get? 0).isSome)
  obtain ⟨s, hs, hget⟩ := Option.bind_eq_some_iff.1 hm
  have hreachable := Machine.reachable_of_run hs ⟨db, rfl, rfl⟩
  exact ⟨s, m, hs, hget, delivered_of_run _ hreachable hget⟩

end

end OneToThree.Messages.Server
