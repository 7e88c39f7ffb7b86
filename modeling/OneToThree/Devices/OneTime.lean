import OneToThree.Devices.Prekeys

/-!
# One-time prekeys are one-time

What the bundles hand out, in every interleaving of the statements of any number of fetches,
uploads and counts.

* A fetch that has taken a prekey has its row locked until it commits (`Held`), whatever the
  others do meanwhile: they skip the row, and do not delete it.
* The rows that the fetches have deleted are those of the bundles sent, each of them once, and
  none of them is there any more (`Inv`).

`handedOut_of_run`: no row is in two bundles; the row of a bundle was deleted by its own fetch
only, and is the lowest that was available of the user and the device that were asked for.
-/

namespace OneToThree.Prekeys

open Transactional Service

/-- The prekey of a bundle. -/
def handedOut : Request × Reply → Option OneTimePrekey
  | (_, .bundle _ _ _ _ opk) => opk
  | _ => none

/-- The device is the one that the request names, if it names one: by its id, or by a name
    that it was found by. -/
def Names (resolved : List (String × String × String)) (device_id : Option String)
    (userId deviceId : String) : Prop :=
  ∀ provided ∈ device_id, deviceId = provided ∨ (userId, provided, deviceId) ∈ resolved

/-- The prekey is of the user and the device that the request asks for, and the bundle is
    theirs. -/
def AskedFor (resolved : List (String × String × String)) (r : OneTimePrekey) :
    Request → Reply → Prop
  | .getBundle _ userId device_id, .bundle user_id deviceId _ _ _ =>
    user_id = userId ∧ r.userId = userId ∧ r.deviceId = deviceId ∧
      Names resolved device_id userId deviceId
  | _, _ => False

/-- The prekey has the lowest id of those that were available of its user and its device. -/
structure Pop.Lowest (pop : Pop) : Prop where
  mem : pop.row ∈ pop.among
  le : ∀ r ∈ pop.among, pop.row.preKeyId ≤ r.preKeyId
  of : ∀ r ∈ pop.among, r.userId = pop.row.userId ∧ r.deviceId = pop.row.deviceId

/-! ## The annotation -/

/-- The row of a prekey that a request has taken is there, and locked by the request. -/
structure Held (db : Db) (i : ℕ) (pop : Pop) : Prop where
  lock : (pop.row.serial, i) ∈ db.deleting
  row : pop.row ∈ db.onetimePrekeys
  lowest : pop.Lowest

/-- The device is the one that the request names. -/
def About (resolved : List (String × String × String)) : Request → String → Prop
  | .getBundle _ userId device_id, deviceId => Names resolved device_id userId deviceId
  | _, _ => False

/-- What holds when a request comes to a statement. -/
def pre : Annotation Db Session Statement Statement.Result Request Reply :=
  fun a q next i db tx =>
    match q with
    | .selectIdentity _ canonicalDeviceId => tx.popped = none ∧
        ∀ d, canonicalDeviceId.all (d = ·) = true → About db.history.resolved a d
    | .selectSignedPrekey _ d | .mayPopOpk _ d | .popOpk _ d =>
      tx.popped = none ∧ About db.history.resolved a d
    | .commit => ∃ b, next () = .done b ∧ handedOut (a, b) = tx.popped.map Pop.row ∧
        ∀ pop ∈ tx.popped, Held db i pop ∧ AskedFor db.history.resolved pop.row a b
    | _ => tx.popped = none

/-- The rows, the locks and the history. -/
structure Rows (db : Db) : Prop where
  nodup : (db.onetimePrekeys.map OneTimePrekey.serial).Nodup
  serial_lt : ∀ r ∈ db.onetimePrekeys, r.serial < db.nextSerial
  holder : ∀ n i j, (n, i) ∈ db.deleting → (n, j) ∈ db.deleting → i = j
  popped_nodup : (db.history.popped.map fun pop => pop.row.serial).Nodup
  popped_lt : ∀ pop ∈ db.history.popped, pop.row.serial < db.nextSerial
  popped_gone : ∀ pop ∈ db.history.popped, ∀ r ∈ db.onetimePrekeys, r.serial ≠ pop.row.serial
  popped_lowest : ∀ pop ∈ db.history.popped, pop.Lowest

/-- The prekeys taken are those of the bundles, each of them what was asked for. -/
structure Inv (db : Db) (replies : List (Request × Reply)) : Prop where
  rows : Rows db
  popped : db.history.popped.map Pop.row = replies.filterMap handedOut
  asked : ∀ x ∈ replies, ∀ r ∈ handedOut x, AskedFor db.history.resolved r x.1 x.2

/-! ## Along the routes -/

theorem pre_commit {a : Request} {b : Reply} {i : ℕ} {db : Db} {tx : Session}
    (hb : handedOut (a, b) = none) (htx : tx.popped = none) :
    pre a .commit (fun _ => .done b) i db tx :=
  ⟨b, rfl, by rw [hb, htx]; rfl, fun pop hpop => by rw [htx] at hpop; cases hpop⟩

theorem along_commit (a : Request) (b : Reply) :
    (Program.ask Statement.commit fun _ => .done b).Along (keys.Local pre a) :=
  ⟨fun _ _ _ _ _ _ _ _ => trivial, fun _ => trivial⟩

theorem mem_available {db : Db} {userId deviceId : String} {r : OneTimePrekey} :
    r ∈ db.available userId deviceId ↔ r ∈ db.onetimePrekeys ∧ r.userId = userId ∧
      r.deviceId = deviceId ∧ db.locked r = false := by
  rw [Db.available, List.mem_filter, Db.opks, List.mem_filter]
  simp [and_assoc]

/-- What taking a prekey does: nothing, if there is none, or it locks the lowest one. -/
theorem popOpk_cases {db : Db} {i : ℕ} {tx : Session} {userId deviceId : String}
    {x : Option OneTimePrekey} {db' : Db} {tx' : Session}
    (h : db.popOpk i tx userId deviceId = (x, db', tx')) :
    (x = none ∧ db' = db ∧ tx' = tx) ∨
    (∃ pop : Pop, x = some pop.row ∧ pop.Lowest ∧ pop.row ∈ db.available userId deviceId ∧
      db' = { db with deleting := (pop.row.serial, i) :: db.deleting } ∧ tx' = ⟨some pop⟩) := by
  rw [Db.popOpk] at h
  cases hmin : (db.available userId deviceId).argmin OneTimePrekey.preKeyId with
  | none =>
    rw [hmin] at h
    cases h
    exact .inl ⟨rfl, rfl, rfl⟩
  | some row =>
    rw [hmin] at h
    cases h
    have hmem := List.argmin_mem hmin
    refine .inr ⟨⟨row, db.available userId deviceId⟩, rfl, ⟨hmem, fun r hr => ?_, fun r hr => ?_⟩,
      hmem, rfl, rfl⟩
    · exact List.le_of_mem_argmin hr hmin
    · obtain ⟨-, hu, hd, -⟩ := mem_available.1 hmem
      obtain ⟨-, hu', hd', -⟩ := mem_available.1 hr
      exact ⟨hu'.trans hu.symm, hd'.trans hd.symm⟩

theorem mayPopOpk_eq (db : Db) (requesterId targetDeviceId : String) :
    ∃ pops, (db.mayPopOpk requesterId targetDeviceId).2 = { db with opkPops := pops } := by
  rw [Db.mayPopOpk]
  split <;> exact ⟨_, rfl⟩

/-- An identity that is found is of the device that it was looked up by. -/
theorem deviceId_of_selectIdentity {t : Tables} {userId : String} {deviceId : Option String}
    {k : IdentityKey} (h : t.selectIdentity userId deviceId = some k) :
    deviceId.all (k.deviceId = ·) = true := by
  have hmem := (List.mem_filter.1 (List.argmax_mem h)).2
  rw [Bool.and_eq_true, Bool.and_eq_true] at hmem
  exact hmem.1.2

theorem along_bundleTransaction (viewerId userId : String) (device_id : Option String)
    (canonicalDeviceId : Option String) :
    (bundleTransaction viewerId userId canonicalDeviceId >>= fun x =>
      .done (bundleReply userId x)).Along
        (keys.Local pre (.getBundle viewerId userId device_id)) := by
  rw [bundleTransaction]
  simp only [statement, Program.request_bind, Program.ask_bind]
  refine ⟨?_, fun identity => ?_⟩
  · rintro i db tx identity db' tx' ⟨htx, habout⟩ h
    cases h
    cases hidentity : db.tables.selectIdentity userId canonicalDeviceId with
    | none => exact pre_commit rfl htx
    | some identity => exact ⟨htx, habout _ (deviceId_of_selectIdentity hidentity)⟩
  cases identity with
  | none => exact along_commit _ _
  | some identity =>
    refine ⟨?_, fun spk => ?_⟩
    · rintro i db tx spk db' tx' ⟨htx, habout⟩ h
      cases h
      cases db.tables.selectSignedPrekey userId identity.deviceId with
      | none => exact pre_commit rfl htx
      | some spk => exact ⟨htx, habout⟩
    cases spk with
    | none => exact along_commit _ _
    | some spk =>
      refine ⟨?_, fun may => ?_⟩
      · rintro i db tx may db' tx' ⟨htx, habout⟩ h
        have hmay : db.mayPopOpk viewerId identity.deviceId = (may, db') ∧ tx' = tx := by
          cases h
          exact ⟨rfl, rfl⟩
        obtain ⟨pops, hpops⟩ := mayPopOpk_eq db viewerId identity.deviceId
        rw [hmay.1] at hpops
        obtain ⟨rfl, rfl⟩ : db' = { db with opkPops := pops } ∧ tx' = tx := ⟨hpops, hmay.2⟩
        cases may with
        | false => exact pre_commit rfl htx
        | true => exact ⟨htx, habout⟩
      cases may with
      | false => exact along_commit _ _
      | true =>
        refine ⟨?_, fun opk => along_commit _ _⟩
        rintro i db tx opk db' tx' ⟨htx, habout⟩ h
        rcases popOpk_cases (Option.some.inj h) with ⟨rfl, rfl, rfl⟩ |
          ⟨pop, rfl, hlowest, hmem, rfl, rfl⟩
        · exact pre_commit rfl htx
        · refine ⟨_, rfl, rfl, fun pop' hpop => ?_⟩
          obtain rfl : pop = pop' := by simpa using hpop
          obtain ⟨hrow, hu, hd, -⟩ := mem_available.1 hmem
          exact ⟨⟨List.mem_cons_self, hrow, hlowest⟩, rfl, hu, hd, habout⟩

/-- A statement that leaves the session as it is, before another that asks for no more. -/
theorem local_quiet {a : Request} {q : Statement} {next : q.Result → Route Reply}
    (hpre : ∀ i db tx, pre a q next i db tx → tx.popped = none)
    (hanswer : ∀ i db tx x db' tx', answer i db tx q = some (x, db', tx') → tx' = tx)
    (hnext : ∀ x i db tx, tx.popped = none → Asserted pre i a db tx (next x)) :
    keys.Local pre a q next := by
  intro i db tx x db' tx' h hx
  have htx := hpre i db tx h
  rw [← hanswer i db tx x db' tx' hx] at htx
  exact hnext x i db' tx' htx

theorem along_fetchBundle (viewerId userId : String) (device_id : Option String) :
    (fetchBundle viewerId userId device_id).Along
      (keys.Local pre (.getBundle viewerId userId device_id)) := by
  cases device_id with
  | none => exact along_bundleTransaction viewerId userId none none
  | some provided =>
    simp only [fetchBundle, resolveCanonicalDeviceId, statement, Program.request_bind,
      Program.ask_bind, Program.pure_eq, Program.done_bind]
    refine ⟨?_, fun row => along_bundleTransaction viewerId userId (some provided) _⟩
    rintro i db tx row db' tx' htx h
    cases h
    refine ⟨htx, fun d hd provided' hprovided => ?_⟩
    cases hprovided
    obtain rfl : d = (db.tables.selectDevice userId provided).getD provided := by simpa using hd
    cases db.tables.selectDevice userId provided with
    | none => exact .inl rfl
    | some id => exact .inr (by simp)

theorem asserted_fetchBundle (viewerId userId : String) (device_id : Option String) (i : ℕ)
    (db : Db) (tx : Session) (htx : tx.popped = none) :
    Asserted pre i (.getBundle viewerId userId device_id) db tx
      (fetchBundle viewerId userId device_id) := by
  cases device_id with
  | none => exact ⟨htx, fun d _ provided hprovided => by cases hprovided⟩
  | some provided => exact htx

theorem along_getBundle (viewerId userId : String) (device_id : Option String) :
    (getBundle viewerId userId device_id).Along
      (keys.Local pre (.getBundle viewerId userId device_id)) := by
  unfold getBundle isForbidden
  refine .ite (fun _ => trivial) fun _ => ?_
  by_cases hself : userId = viewerId
  · rw [if_pos hself]
    exact along_fetchBundle viewerId userId device_id
  · rw [if_neg hself]
    simp only [statement, Program.request_bind, Program.ask_bind, Program.pure_eq,
      Program.done_bind]
    refine ⟨local_quiet (fun _ _ _ h => h) ?_ fun shares i db tx htx => ?_, fun shares =>
      .ite (fun _ => trivial) fun _ => along_fetchBundle viewerId userId device_id⟩
    · rintro i db tx x db' tx' h
      cases h
      rfl
    · cases shares with
      | false => trivial
      | true => exact asserted_fetchBundle viewerId userId device_id i db tx htx

theorem along_handle (a : Request) : (handle a).Along (keys.Local pre a) := by
  cases a with
  | getBundle viewerId userId device_id => exact along_getBundle viewerId userId device_id
  | postOneTime userId deviceId opks =>
    cases deviceId with
    | none => trivial
    | some deviceId =>
      change (postOneTime userId (some deviceId) opks).Along _
      simp only [postOneTime, statement, Program.request_bind]
      refine .ite (fun _ => trivial) fun _ => ⟨local_quiet (fun _ _ _ h => h) ?_ ?_, fun count =>
        .ite (fun _ => trivial) fun _ => ⟨fun _ _ _ _ _ _ _ _ => trivial, fun _ => trivial⟩⟩
      · rintro i db tx x db' tx' h
        cases h
        rfl
      · intro count i db tx htx
        split_ifs
        exacts [trivial, htx]
  | getInventory userId deviceId =>
    cases deviceId with
    | none => trivial
    | some deviceId => exact ⟨fun _ _ _ _ _ _ _ _ => trivial, fun _ => trivial⟩

/-- Nothing is asked of the first statement of a request. -/
theorem asserted_start (i : ℕ) (a : Request) (db : Db) :
    Asserted pre i a db keys.session (handle a) := by
  cases a with
  | getBundle viewerId userId device_id =>
    change Asserted _ _ _ _ _ (getBundle viewerId userId device_id)
    unfold getBundle isForbidden
    split_ifs
    · trivial
    · exact asserted_fetchBundle viewerId userId device_id i db _ rfl
    · rfl
  | postOneTime userId deviceId opks =>
    cases deviceId with
    | none => trivial
    | some deviceId =>
      change Asserted _ _ _ _ _ (postOneTime userId (some deviceId) opks)
      simp only [postOneTime]
      split_ifs
      exacts [trivial, rfl]
  | getInventory userId deviceId =>
    cases deviceId with
    | none => trivial
    | some deviceId => exact rfl

/-! ## The steps of the others -/

/-- What a step of another request leaves to the request `j`: its locks, the rows that it has
    locked, and what is in the history. -/
structure Keeps (j : ℕ) (db db' : Db) : Prop where
  lock : ∀ n, (n, j) ∈ db.deleting → (n, j) ∈ db'.deleting
  row : ∀ r ∈ db.onetimePrekeys, (r.serial, j) ∈ db.deleting → r ∈ db'.onetimePrekeys
  resolved : ∀ x ∈ db.history.resolved, x ∈ db'.history.resolved

section
variable {l l' : List (String × String × String)} (hl : ∀ x ∈ l, x ∈ l')
include hl

theorem Names.mono {device_id : Option String} {userId deviceId : String}
    (h : Names l device_id userId deviceId) : Names l' device_id userId deviceId :=
  fun provided hprovided => (h provided hprovided).imp_right (hl _)

theorem About.mono {a : Request} {deviceId : String} (h : About l a deviceId) :
    About l' a deviceId := by
  cases a with
  | getBundle viewerId userId device_id => exact Names.mono hl h
  | _ => exact h

theorem AskedFor.mono {r : OneTimePrekey} {a : Request} {b : Reply} (h : AskedFor l r a b) :
    AskedFor l' r a b := by
  cases a with
  | getBundle viewerId userId device_id =>
    cases b with
    | bundle user_id deviceId identity spk opk => exact ⟨h.1, h.2.1, h.2.2.1, h.2.2.2.mono hl⟩
    | _ => exact h
  | _ => exact h

end

theorem Keeps.pre {j : ℕ} {db db' : Db} (hkeeps : Keeps j db db') {a : Request} {q : Statement}
    {next : q.Result → Route Reply} {tx : Session} (h : pre a q next j db tx) :
    pre a q next j db' tx := by
  cases q with
  | selectIdentity _ _ => exact ⟨h.1, fun d hd => (h.2 d hd).mono hkeeps.resolved⟩
  | selectSignedPrekey _ _ | mayPopOpk _ _ | popOpk _ _ => exact ⟨h.1, h.2.mono hkeeps.resolved⟩
  | commit =>
    obtain ⟨b, hb, hopk, hpop⟩ := h
    refine ⟨b, hb, hopk, fun pop hmem => ?_⟩
    obtain ⟨⟨hlock, hrow, hlowest⟩, hasked⟩ := hpop pop hmem
    exact ⟨⟨hkeeps.lock _ hlock, hkeeps.row _ hrow hlock, hlowest⟩, hasked.mono hkeeps.resolved⟩
  | _ => exact h

/-- What a statement does to the rows, the locks and the history. -/
theorem answer_cases {i : ℕ} {db db' : Db} {tx tx' : Session} {q : Statement} {x : q.Result}
    (h : answer i db tx q = some (x, db', tx')) :
    (∃ u d, ∃ pop : Pop, q = .popOpk u d ∧ pop.row ∈ db.available u d ∧
      db' = { db with deleting := (pop.row.serial, i) :: db.deleting }) ∨
    (q = .commit ∧ db' = db.commit i tx) ∨
    (∃ u d ks, q = .insertOpks u d ks ∧ db' = ks.foldl (Db.insertOpk u d) db) ∨
    (q ≠ .commit ∧ db'.onetimePrekeys = db.onetimePrekeys ∧ db'.deleting = db.deleting ∧
      db'.nextSerial = db.nextSerial ∧ db'.history.popped = db.history.popped ∧
      ∀ x ∈ db.history.resolved, x ∈ db'.history.resolved) := by
  cases q with
  | popOpk u d =>
    rcases popOpk_cases (Option.some.inj h) with ⟨-, rfl, -⟩ | ⟨pop, -, -, hmem, rfl, -⟩
    · exact .inr (.inr (.inr ⟨by simp, rfl, rfl, rfl, rfl, fun _ hx => hx⟩))
    · exact .inl ⟨u, d, pop, rfl, hmem, rfl⟩
  | commit =>
    cases h
    exact .inr (.inl ⟨rfl, rfl⟩)
  | insertOpks u d ks =>
    rw [answer] at h
    split_ifs at h
    cases h
    exact .inr (.inr (.inl ⟨u, d, ks, rfl, rfl⟩))
  | mayPopOpk requesterId targetDeviceId =>
    obtain ⟨pops, hpops⟩ := mayPopOpk_eq db requesterId targetDeviceId
    have hdb : (db.mayPopOpk requesterId targetDeviceId).2 = db' := by
      cases h
      rfl
    rw [← hdb, hpops]
    exact .inr (.inr (.inr ⟨by simp, rfl, rfl, rfl, rfl, fun _ hx => hx⟩))
  | selectDevice u provided =>
    cases h
    exact .inr (.inr (.inr ⟨by simp, rfl, rfl, rfl, rfl, fun _ hx => List.mem_append_left _ hx⟩))
  | _ =>
    cases h
    exact .inr (.inr (.inr ⟨by simp, rfl, rfl, rfl, rfl, fun _ hx => hx⟩))

/-! ## The rows -/

theorem insertOpk_cases (u d : String) (db : Db) (k : ℕ × String) :
    db.insertOpk u d k = db ∨ db.insertOpk u d k =
      { db with
        onetimePrekeys := db.onetimePrekeys ++ [⟨db.nextSerial, u, d, k.1, k.2⟩]
        nextSerial := db.nextSerial + 1 } := by
  rw [Db.insertOpk]
  split_ifs
  exacts [.inr rfl, .inl rfl]

theorem Rows.insertOpk {db : Db} (h : Rows db) (u d : String) (k : ℕ × String) :
    Rows (db.insertOpk u d k) := by
  rcases insertOpk_cases u d db k with heq | heq
  · rw [heq]
    exact h
  rw [heq]
  have hfresh : ∀ r ∈ db.onetimePrekeys, r.serial ≠ db.nextSerial := fun r hr =>
    Nat.ne_of_lt (h.serial_lt r hr)
  constructor
  · rw [List.map_append, List.map_singleton, List.nodup_append]
    refine ⟨h.nodup, List.nodup_singleton _, fun n hn m hm => ?_⟩
    obtain ⟨r, hr, rfl⟩ := List.mem_map.1 hn
    rw [List.mem_singleton.1 hm]
    exact hfresh r hr
  · intro r hr
    rcases List.mem_append.1 hr with hr | hr
    · exact Nat.lt_succ_of_lt (h.serial_lt r hr)
    · rw [List.mem_singleton.1 hr]
      exact Nat.lt_succ_self _
  · exact h.holder
  · exact h.popped_nodup
  · exact fun pop hpop => Nat.lt_succ_of_lt (h.popped_lt pop hpop)
  · intro pop hpop r hr
    rcases List.mem_append.1 hr with hr | hr
    · exact h.popped_gone pop hpop r hr
    · rw [List.mem_singleton.1 hr]
      exact (Nat.ne_of_lt (h.popped_lt pop hpop)).symm
  · exact h.popped_lowest

theorem Rows.insertOpks {db : Db} (h : Rows db) (u d : String) (ks : List (ℕ × String)) :
    Rows (ks.foldl (Db.insertOpk u d) db) := by
  induction ks generalizing db with
  | nil => exact h
  | cons k ks ih => exact ih (h.insertOpk u d k)

/-- What an upload leaves as it is. -/
theorem insertOpks_frame (u d : String) (ks : List (ℕ × String)) (db : Db) :
    (ks.foldl (Db.insertOpk u d) db).deleting = db.deleting ∧
      (ks.foldl (Db.insertOpk u d) db).history = db.history ∧
      ∀ r ∈ db.onetimePrekeys, r ∈ (ks.foldl (Db.insertOpk u d) db).onetimePrekeys := by
  induction ks generalizing db with
  | nil => exact ⟨rfl, rfl, fun _ hr => hr⟩
  | cons k ks ih =>
    obtain ⟨hdeleting, hhistory, hrows⟩ := ih (db.insertOpk u d k)
    rcases insertOpk_cases u d db k with heq | heq
    · rw [heq] at hdeleting hhistory hrows
      rw [List.foldl_cons, heq]
      exact ⟨hdeleting, hhistory, hrows⟩
    · rw [heq] at hdeleting hhistory hrows
      rw [List.foldl_cons, heq]
      exact ⟨hdeleting, hhistory, fun r hr => hrows r (List.mem_append_left _ hr)⟩

/-- Some of the rows are gone, and some of the locks. -/
theorem Rows.sublist {db db' : Db} (h : Rows db)
    (hrows : db'.onetimePrekeys.Sublist db.onetimePrekeys)
    (hdeleting : ∀ x ∈ db'.deleting, x ∈ db.deleting) (hserial : db'.nextSerial = db.nextSerial)
    (hpopped : db'.history.popped = db.history.popped) : Rows db' where
  nodup := h.nodup.sublist (hrows.map _)
  serial_lt r hr := hserial ▸ h.serial_lt r (hrows.subset hr)
  holder n i j hi hj := h.holder n i j (hdeleting _ hi) (hdeleting _ hj)
  popped_nodup := hpopped ▸ h.popped_nodup
  popped_lt := hpopped ▸ hserial ▸ h.popped_lt
  popped_gone pop hpop r hr := h.popped_gone pop (hpopped ▸ hpop) r (hrows.subset hr)
  popped_lowest := hpopped ▸ h.popped_lowest

theorem Rows.popOpk {db : Db} (h : Rows db) {u d : String} {r : OneTimePrekey}
    (hr : r ∈ db.available u d) (i : ℕ) :
    Rows { db with deleting := (r.serial, i) :: db.deleting } := by
  obtain ⟨-, -, -, hfree⟩ := mem_available.1 hr
  have hnot : ∀ j, (r.serial, j) ∉ db.deleting := fun j hj => by
    rw [Db.locked, List.any_eq_false] at hfree
    exact hfree _ hj (by simp)
  refine { h with holder := fun n j j' hj hj' => ?_ }
  rcases List.mem_cons.1 hj with hj | hj <;> rcases List.mem_cons.1 hj' with hj' | hj'
  · cases hj
    cases hj'
    rfl
  · cases hj
    exact absurd hj' (hnot j')
  · cases hj'
    exact absurd hj (hnot j)
  · exact h.holder n j j' hj hj'

theorem Rows.commit {db : Db} (h : Rows db) {i : ℕ} {tx : Session}
    (hheld : ∀ pop ∈ tx.popped, Held db i pop) : Rows (db.commit i tx) := by
  have hsub : Rows { db.unlock i with
      onetimePrekeys := db.onetimePrekeys.filter fun r => (r.serial, i) ∉ db.deleting } :=
    h.sublist List.filter_sublist (fun x hx => List.mem_of_mem_filter hx) rfl rfl
  cases htx : tx.popped with
  | none =>
    have hcommit : db.commit i tx = { db.unlock i with
        onetimePrekeys := db.onetimePrekeys.filter fun r => (r.serial, i) ∉ db.deleting } := by
      rw [Db.commit, htx, Option.toList_none, List.append_nil]
      rfl
    rw [hcommit]
    exact hsub
  | some pop =>
    obtain ⟨hlock, hrow, hlowest⟩ := hheld pop htx
    have hpopped : (db.commit i tx).history.popped = db.history.popped ++ [pop] := by
      rw [Db.commit, htx]
      rfl
    refine ⟨hsub.nodup, hsub.serial_lt, hsub.holder, ?_, ?_, ?_, ?_⟩
    · rw [hpopped, List.map_append, List.map_singleton, List.nodup_append]
      refine ⟨h.popped_nodup, List.nodup_singleton _, fun n hn m hm => ?_⟩
      obtain ⟨pop', hpop', rfl⟩ := List.mem_map.1 hn
      rw [List.mem_singleton.1 hm]
      exact (h.popped_gone pop' hpop' pop.row hrow).symm
    all_goals
      rw [hpopped]
      intro pop' hpop'
      rcases List.mem_append.1 hpop' with hpop' | hpop'
    · exact h.popped_lt pop' hpop'
    · rw [List.mem_singleton.1 hpop']
      exact h.serial_lt _ hrow
    · exact hsub.popped_gone pop' hpop'
    · -- The row that is taken is deleted.
      rw [List.mem_singleton.1 hpop']
      intro r hr heq
      have := (List.mem_filter.1 hr).2
      rw [heq] at this
      simp [hlock] at this
    · exact h.popped_lowest pop' hpop'
    · rw [List.mem_singleton.1 hpop']
      exact hlowest

/-! ## Every step -/

theorem keeps_answer {i j : ℕ} (hne : j ≠ i) {db db' : Db} (hrows : Rows db) {tx tx' : Session}
    {q : Statement} {x : q.Result} (h : answer i db tx q = some (x, db', tx')) :
    Keeps j db db' := by
  rcases answer_cases h with ⟨u, d, pop, -, -, rfl⟩ | ⟨-, rfl⟩ | ⟨u, d, ks, -, rfl⟩ |
    ⟨-, heq, hdeleting, -, -, hresolved⟩
  · exact ⟨fun _ hn => List.mem_cons_of_mem _ hn, fun _ hr _ => hr, fun _ hx => hx⟩
  · refine ⟨fun n hn => List.mem_filter.2 ⟨hn, by simpa⟩, fun r hr hlock => ?_, fun _ hx => hx⟩
    -- The row is locked by `j`, and not by the request that commits.
    exact List.mem_filter.2 ⟨hr, by
      simpa using fun hi => hne (hrows.holder r.serial j i hlock hi)⟩
  · obtain ⟨hdeleting, hhistory, hsub⟩ := insertOpks_frame u d ks db
    exact ⟨fun n hn => hdeleting ▸ hn, fun r hr _ => hsub r hr, fun x hx => hhistory ▸ hx⟩
  · exact ⟨fun n hn => hdeleting ▸ hn, fun r hr _ => heq ▸ hr, hresolved⟩

theorem keeps_unlock {i j : ℕ} (hne : j ≠ i) (db : Db) : Keeps j db (db.unlock i) :=
  ⟨fun _ hn => List.mem_filter.2 ⟨hn, by simpa⟩, fun _ hr _ => hr, fun _ hx => hx⟩

theorem keeps_world (j : ℕ) (w : Db.World) (db : Db) : Keeps j db (Db.world w db) := by
  cases w with
  | tables tables => exact ⟨fun _ hn => hn, fun _ hr _ => hr, fun _ hx => hx⟩
  | purgeDeviceKeyMaterial deviceIds =>
    refine ⟨fun _ hn => hn, fun r hr hlock => List.mem_filter.2 ⟨hr, ?_⟩, fun _ hx => hx⟩
    have hlocked : db.locked r = true := List.any_eq_true.2 ⟨_, hlock, by simp⟩
    rw [hlocked, Bool.or_true]

theorem rows_world {db : Db} (h : Rows db) (w : Db.World) : Rows (Db.world w db) := by
  cases w with
  | tables tables => exact ⟨h.1, h.2, h.3, h.4, h.5, h.6, h.7⟩
  | purgeDeviceKeyMaterial deviceIds =>
    exact h.sublist List.filter_sublist (fun _ hx => hx) rfl rfl

/-- A bundle with a prekey is sent on the commit of its transaction only. -/
def Unbundled (a : Request) (q : Statement) (next : q.Result → Route Reply) : Prop :=
  q = .commit ∨ ∀ x b, next x = .done b → handedOut (a, b) = none

theorem unbundled_bundleTransaction (a : Request) (viewerId userId : String)
    (canonicalDeviceId : Option String) :
    (bundleTransaction viewerId userId canonicalDeviceId >>= fun x =>
      .done (bundleReply userId x)).Along (Unbundled a) := by
  rw [bundleTransaction]
  simp only [statement, Program.request_bind, Program.ask_bind]
  refine ⟨.inr fun identity b h => ?_, fun identity => ?_⟩
  · cases identity <;> cases h
  cases identity with
  | none => exact ⟨.inl rfl, fun _ => trivial⟩
  | some identity =>
    refine ⟨.inr fun spk b h => ?_, fun spk => ?_⟩
    · cases spk <;> cases h
    cases spk with
    | none => exact ⟨.inl rfl, fun _ => trivial⟩
    | some spk =>
      refine ⟨.inr fun may b h => ?_, fun may => ?_⟩
      · cases may <;> cases h
      cases may with
      | false => exact ⟨.inl rfl, fun _ => trivial⟩
      | true =>
        exact ⟨.inr (fun opk b h => by cases h), fun opk => ⟨.inl rfl, fun _ => trivial⟩⟩

theorem unbundled_fetchBundle (a : Request) (viewerId userId : String)
    (device_id : Option String) :
    (fetchBundle viewerId userId device_id).Along (Unbundled a) := by
  cases device_id with
  | none => exact unbundled_bundleTransaction a viewerId userId none
  | some provided =>
    simp only [fetchBundle, resolveCanonicalDeviceId, statement, Program.request_bind,
      Program.ask_bind, Program.pure_eq, Program.done_bind]
    exact ⟨.inr (fun row b h => by cases h), fun row =>
      unbundled_bundleTransaction a viewerId userId _⟩

theorem fetchBundle_ne_done (viewerId userId : String) (device_id : Option String) (b : Reply) :
    fetchBundle viewerId userId device_id ≠ .done b := by
  cases device_id <;> exact fun h => by cases h

theorem unbundled_handle (a : Request) : (handle a).Along (Unbundled a) := by
  cases a with
  | getBundle viewerId userId device_id =>
    change (getBundle viewerId userId device_id).Along _
    unfold getBundle isForbidden
    refine .ite (fun _ => trivial) fun _ => ?_
    split_ifs
    · exact unbundled_fetchBundle _ viewerId userId device_id
    · refine ⟨.inr fun shares b h => ?_, fun shares => .ite (fun _ => trivial) fun _ =>
        unbundled_fetchBundle _ viewerId userId device_id⟩
      cases shares with
      | false =>
        cases h
        rfl
      | true => exact absurd h (fetchBundle_ne_done viewerId userId device_id b)
  | postOneTime userId deviceId opks =>
    cases deviceId with
    | none => trivial
    | some deviceId =>
      change (postOneTime userId (some deviceId) opks).Along _
      simp only [postOneTime, statement, Program.request_bind]
      refine .ite (fun _ => trivial) fun _ => ⟨.inr fun count b h => ?_, fun count =>
        .ite (fun _ => trivial) fun _ => ⟨.inr fun _ b h => ?_, fun _ => trivial⟩⟩
      · dsimp only at h
        split_ifs at h
        cases h
        rfl
      · cases h
        rfl
  | getInventory userId deviceId =>
    cases deviceId with
    | none => trivial
    | some deviceId =>
      refine ⟨.inr fun count b h => ?_, fun _ => trivial⟩
      cases h
      rfl

theorem handedOut_of_handle {a : Request} {b : Reply} (h : handle a = .done b) :
    handedOut (a, b) = none := by
  cases a with
  | getBundle viewerId userId device_id =>
    change getBundle viewerId userId device_id = .done b at h
    unfold getBundle isForbidden at h
    split_ifs at h
    · cases h
      rfl
    · exact absurd h (fetchBundle_ne_done viewerId userId device_id b)
    · cases h
  | postOneTime userId deviceId opks =>
    cases deviceId with
    | none =>
      cases h
      rfl
    | some deviceId =>
      change postOneTime userId (some deviceId) opks = .done b at h
      simp only [postOneTime] at h
      split_ifs at h <;> cases h
      rfl
  | getInventory userId deviceId =>
    cases deviceId with
    | none =>
      cases h
      rfl
    | some deviceId => cases h

/-- A reply without a prekey, where the prekeys taken stay the same. -/
theorem Inv.reply {db db' : Db} {replies : List (Request × Reply)} (hI : Inv db replies)
    (hrows : Rows db') (hpopped : db'.history.popped = db.history.popped)
    (hresolved : ∀ x ∈ db.history.resolved, x ∈ db'.history.resolved) {a : Request}
    {p : Route Reply} (hp : ∀ b, p = .done b → handedOut (a, b) = none) :
    Inv db' (replies ++ replyOf a p) := by
  have hnone : ∀ x ∈ replyOf a p, handedOut x = none := by
    rintro ⟨a', b⟩ hx
    obtain ⟨rfl, hb⟩ := mem_replyOf.1 hx
    exact hp b hb
  refine ⟨hrows, ?_, fun x hx r hr => ?_⟩
  · rw [hpopped, hI.popped, List.filterMap_append, List.filterMap_eq_nil_iff.2 hnone,
      List.append_nil]
  · rcases List.mem_append.1 hx with hx | hx
    · exact (hI.asked x hx r hr).mono hresolved
    · rw [hnone x hx] at hr
      cases hr

theorem inv_serve {s : State Db Session Statement Statement.Result Request Reply} {i : ℕ}
    {a : Request} {tx : Session} {q : Statement} {next : q.Result → Route Reply} {x : q.Result}
    {db : Db} {tx' : Session} (hserved : Served keys s i a tx q next x db tx')
    (hunbundled : Unbundled a q next) (hI : Inv s.store s.replies)
    (hpre : pre a q next i s.store tx) : Inv db (s.replies ++ replyOf a (next x)) := by
  have hquiet : q ≠ .commit → ∀ b, next x = .done b → handedOut (a, b) = none := fun hq =>
    (hunbundled.resolve_left hq) x
  rcases answer_cases hserved.answer with ⟨u, d, pop, rfl, hmem, rfl⟩ | ⟨rfl, rfl⟩ |
    ⟨u, d, ks, rfl, rfl⟩ | ⟨hq, heq, hdeleting, hserial, hpopped, hresolved⟩
  · exact hI.reply (hI.rows.popOpk hmem i) rfl (fun _ hx => hx) (hquiet (by simp))
  · obtain ⟨b, hb, hopk, hpop⟩ := hpre
    have hnext : next x = .done b := hb
    have hheld : ∀ pop ∈ tx.popped, Held s.store i pop := fun pop hmem => (hpop pop hmem).1
    rw [hnext, replyOf_done]
    refine ⟨hI.rows.commit hheld, ?_, fun y hy r hr => ?_⟩
    · have hhistory : (s.store.commit i tx).history.popped =
          s.store.history.popped ++ tx.popped.toList := rfl
      rw [hhistory, List.map_append, hI.popped, List.filterMap_append]
      congr 1
      cases htx : tx.popped <;> simp [hopk, htx]
    · rcases List.mem_append.1 hy with hy | hy
      · exact hI.asked y hy r hr
      · rw [List.mem_singleton.1 hy, hopk] at hr
        obtain ⟨pop, hmem, rfl⟩ := Option.mem_map.1 hr
        rw [List.mem_singleton.1 hy]
        exact (hpop pop hmem).2
  · obtain ⟨-, hhistory, -⟩ := insertOpks_frame u d ks s.store
    refine hI.reply (hI.rows.insertOpks u d ks) (by rw [hhistory]) (fun _ hx => ?_)
      (hquiet (by simp))
    rwa [hhistory]
  · refine hI.reply (hI.rows.sublist ?_ (fun y hy => hdeleting ▸ hy) hserial hpopped) hpopped
      hresolved (hquiet hq)
    rw [heq]

/-- No row of a prekey is in two bundles. The rows of the bundles are those that the fetches
    have deleted, each of them by its own fetch, and are gone; the row of a bundle is of the
    user and the device asked for, and had the lowest id of those available. -/
theorem handedOut_of_run {s : State Db Session Statement Statement.Result Request Reply}
    (hs : (keys.machine Fresh).Reachable s) :
    ((s.replies.filterMap handedOut).map OneTimePrekey.serial).Nodup ∧
      s.store.history.popped.map Pop.row = s.replies.filterMap handedOut ∧
      ∀ x ∈ s.replies, ∀ r ∈ handedOut x,
        AskedFor s.store.history.resolved r x.1 x.2 ∧
        (∃ pop ∈ s.store.history.popped, pop.row = r ∧ pop.Lowest) ∧
        ∀ r' ∈ s.store.onetimePrekeys, r'.serial ≠ r.serial := by
  have hs' : ((keys.machine Fresh).restrict fun _ _ => True).Reachable s :=
    hs.restrict fun _ _ => trivial
  have hI : Inv s.store s.replies := by
    refine (outline (P := Unbundled) (fun db hdb => ?_)
      (fun a => (unbundled_handle a).and (along_handle a)) asserted_start
      (fun a db replies hI => hI.reply hI.rows rfl (fun _ hx => hx)
        fun b hb => handedOut_of_handle hb)
      (fun s i a tx q next x db tx' _ hserved => inv_serve hserved)
      (fun s i a tx q next x db tx' _ hserved hI _ j b k q' next' hne _ =>
        (keeps_answer hne hI.rows hserved.answer).pre)
      (fun i db replies hI => ?_) (fun i db a q next j k hne => (keeps_unlock hne db).pre)
      (fun w db replies hI => ?_) (fun w db a q next j k => (keeps_world j w db).pre) hs').1
    · refine ⟨⟨hdb.nodup, hdb.serial_lt, ?_, ?_, ?_, ?_, ?_⟩, ?_, ?_⟩ <;>
        simp [hdb.deleting, hdb.popped]
    · exact ⟨hI.rows.sublist (.refl _) (fun _ hx => List.mem_of_mem_filter hx) rfl rfl, hI.popped,
        hI.asked⟩
    · refine ⟨rows_world hI.rows w, ?_, ?_⟩
      · cases w <;> exact hI.popped
      · cases w <;> exact hI.asked
  refine ⟨?_, hI.popped, fun x hx r hr => ⟨hI.asked x hx r hr, ?_⟩⟩
  · rw [← hI.popped, List.map_map]
    exact hI.rows.popped_nodup
  · have hmem : r ∈ s.store.history.popped.map Pop.row := by
      rw [hI.popped]
      exact List.mem_filterMap.2 ⟨x, hx, hr⟩
    obtain ⟨pop, hpop, rfl⟩ := List.mem_map.1 hmem
    exact ⟨⟨pop, hpop, rfl, hI.rows.popped_lowest pop hpop⟩, hI.rows.popped_gone pop hpop⟩

/-- Bob's phone has published its keys, and shares a chat with Ann. -/
def published : Db where
  tables :=
    { chatMembers := [("chat", "ann"), ("chat", "bob")]
      devices := [⟨"phone", "bob", "key", none⟩]
      identityKeys := [⟨"bob", "phone", "ed25519", "x25519", "signature", 1, 0⟩]
      signedPrekeys := [⟨"bob", "phone", 0, "x25519", "signature", 0⟩]
      now := 0 }
  onetimePrekeys := [⟨0, "bob", "phone", 4, "four"⟩, ⟨1, "bob", "phone", 3, "three"⟩]
  deleting := []
  nextSerial := 2
  opkPops := ∅
  history := ⟨[], []⟩

/-- Two fetches at the same time take different prekeys. -/
theorem handedOut_concurrently :
    ∃ s : State Db Session Statement Statement.Result Request Reply,
      (s.replies.filterMap handedOut).map OneTimePrekey.preKeyId = [4, 3] ∧
        ((s.replies.filterMap handedOut).map OneTimePrekey.serial).Nodup := by
  have hrun : ((keys.machine Fresh).run (.start published)
      ([.receive (.getBundle "ann" "bob" none), .receive (.getBundle "ann" "bob" (some "key"))] ++
        [0, 1, 1, 0, 0, 0, 0, 1, 1, 1, 1, 1, 0].map .serve)).map
      (fun s => (s.replies.filterMap handedOut).map OneTimePrekey.preKeyId) = some [4, 3] := by
    decide
  obtain ⟨s, hs, hopks⟩ := Option.map_eq_some_iff.1 hrun
  have hfresh : Fresh published := ⟨rfl, rfl, rfl, by decide, by decide⟩
  exact ⟨s, hopks, (handedOut_of_run (Machine.reachable_of_run hs ⟨published, hfresh, rfl⟩)).1⟩

end OneToThree.Prekeys
