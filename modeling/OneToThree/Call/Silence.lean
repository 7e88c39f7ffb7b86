import OneToThree.Call.AuthCache
import OneToThree.Lib.Outline

/-!
# Blocks and relayed audio

A frame of relayed audio is forwarded on a decision that was kept for its two users, without
a lookup. A block stands from its answer on until it is lifted (`history`), and its two users
are to hear nothing of each other then.

* Whoever looks a pair up while a block of theirs stands does not forward.
* Whoever has looked it up before keeps the decision anyway, after the block has taken the old
  ones out of the cache: the frames that follow are forwarded on it (`heard_after_block`). So
  are those that another API instance forwards, whose cache a block does not reach.

`silent_of_run`: along a run in which no such decision is kept (`KeepsSilence`), no frame is
forwarded that came after the answer of a block that stands.
-/

namespace OneToThree.CallAuth

open Service

/-- The blocks that stand: how many requests and frames had come when each was answered. -/
abbrev Standing := InsMap (UserId × UserId) ℕ

abbrev AuthState := Service.State Store Statement Statement.Result Request Reply

def Request.isBlock : Request → Bool
  | .postBlock _ _ _ => true
  | _ => false

local instance : LawfulBEq (UserId × UserId) := inferInstance

/-- A block stands from its answer on, if it was not lifted before, until it is lifted. -/
def history : History Store Statement Statement.Result Request Reply Standing where
  start := ∅
  receive _ _ h := h
  serve s _ a q _ h :=
    match q with
    | .invalidateCallAuth _ userA userB =>
      if a.isBlock ∧ (userA, userB) ∈ s.store.userBlocks ∧ h.has (userA, userB) = false then
        h.set (userA, userB) s.received
      else h
    | .deleteBlock blockerId blockedId => h.delete (blockerId, blockedId)
    | _ => h

/-- A block between two users stands, which was answered when `n` frames had come. -/
def Stands (h : Standing) (userA userB : UserId) (n : ℕ) : Prop :=
  h.get? (userA, userB) = some n ∨ h.get? (userB, userA) = some n

/-- An entry that allows frames from one of two users to the other, on another instance. -/
def Elsewhere (inst : InstanceId) (userA userB : UserId)
    (e : (InstanceId × UserId × UserId) × Entry) : Prop :=
  e.1.1 ≠ inst ∧ (e.1.2 = (userA, userB) ∨ e.1.2 = (userB, userA)) ∧ e.2.authorized = true

instance (inst : InstanceId) (userA userB : UserId) (e : (InstanceId × UserId × UserId) × Entry) :
    Decidable (Elsewhere inst userA userB e) := inferInstanceAs (Decidable (_ ∧ _ ∧ _))

/-- The steps that keep no decision against a block: none is made to allow frames while one
    stands, and a block finds none on other instances. -/
def KeepsSilence (p : AuthState × Standing) (_ : ℕ) (a : Request) : Statement → Prop
  | .setCachedCallAuth _ senderId targetUserId authorized => authorized = true →
    p.2.has (senderId, targetUserId) = false ∧ p.2.has (targetUserId, senderId) = false
  | .invalidateCallAuth inst userA userB =>
    a.isBlock = true ∧ (userA, userB) ∈ p.1.store.userBlocks →
      ∀ e ∈ p.1.store.cache.entries, Elsewhere inst userA userB e → e.2.expiresAt ≤ p.1.store.now
  | _ => True

instance (p : AuthState × Standing) (i : ℕ) (a : Request) : ∀ q, Decidable (KeepsSilence p i a q)
  | .setCachedCallAuth _ _ _ _ => inferInstanceAs (Decidable (_ → _ ∧ _))
  | .invalidateCallAuth inst userA userB => inferInstanceAs (Decidable (_ ∧ _ →
      ∀ e ∈ p.1.store.cache.entries, Elsewhere inst userA userB e → _))
  | .selectUser _ | .insertBlock _ _ | .deleteBlock _ _ | .isBlocked _ _ | .selectChats _
  | .selectShared _ _ | .getCachedCallAuth _ _ _ | .sweep _ | .setMembers _ | .elapse _ =>
    isTrue trivial

/-- A step forwards a frame of relayed audio. -/
def Forwards (s s' : AuthState) (senderId targetUserId : UserId) : Prop :=
  ∃ inst bytes, s'.replies = s.replies ++
    [(.webrtcSignal inst senderId targetUserId .relay_frame bytes, .forwarded)]

/-! ## Entries -/

/-- What holds in every run: a block that stands is in its table, no entry allows frames
    against it, and an entry expires within the time that it was kept for. -/
structure Silent (s : Store) (h : Standing) : Prop where
  row : ∀ x n, h.get? x = some n → x ∈ s.userBlocks
  denied : ∀ inst a b n e, Stands h a b n → s.cache.get? (inst, a, b) = some e →
    e.authorized = true → e.expiresAt ≤ s.now
  ttl : ∀ k e, s.cache.get? k = some e → e.expiresAt ≤ s.now + DEFAULT_TTL_MS

/-- The cache has lost entries. -/
theorem Silent.forget {s : Store} {h : Standing} (hs : Silent s h) {cache} (hcache :
    ∀ k e, cache.get? k = some e → s.cache.get? k = some e) :
    Silent { s with cache := cache } h :=
  ⟨hs.row, fun inst a b n e hn he => hs.denied inst a b n e hn (hcache _ _ he),
    fun k e he => hs.ttl k e (hcache k e he)⟩

theorem getCachedCallAuth_cases (s : Store) (inst : InstanceId) (a b : UserId) :
    ((s.getCachedCallAuth inst a b).1 = none ∧ ((s.getCachedCallAuth inst a b).2 = s ∨
      (s.getCachedCallAuth inst a b).2 = { s with cache := s.cache.delete (inst, a, b) })) ∨
    (∃ e, s.cache.get? (inst, a, b) = some e ∧ s.now < e.expiresAt ∧
      s.getCachedCallAuth inst a b = (some e.authorized, s)) := by
  rw [Store.getCachedCallAuth]
  cases hget : s.cache.get? (inst, a, b) with
  | none => exact .inl ⟨rfl, .inl rfl⟩
  | some e =>
    dsimp only
    split_ifs with hexp
    · exact .inl ⟨rfl, .inr rfl⟩
    · exact .inr ⟨e, rfl, Nat.lt_of_not_le hexp, rfl⟩

theorem get?_sweep {s : Store} {inst : InstanceId} {k : InstanceId × UserId × UserId} {e : Entry}
    (h : (s.sweep inst).cache.get? k = some e) : s.cache.get? k = some e := by
  rw [InsMap.get?_eq_some_iff] at h ⊢
  exact List.mem_of_mem_filter h

/-! ## Along the relay -/

/-- Who is about to keep a decision that allows frames came before the answer of every block
    that stands. -/
def pre : Annotation Store Statement Statement.Result Request Reply Standing :=
  fun i _ q _ _ h =>
    match q with
    | .setCachedCallAuth _ senderId targetUserId authorized =>
      authorized = true → ∀ n, Stands h senderId targetUserId n → i < n
    | _ => True

/-- A frame that is forwarded came before the answer of every block that stands. -/
def post (i : ℕ) (a : Request) (b : Reply) (_ : Store) (h : Standing) : Prop :=
  ∀ inst u v bytes, a = .webrtcSignal inst u v .relay_frame bytes → b = .forwarded →
    ∀ n, Stands h u v n → i < n

/-- What is forwarded on a decision that was kept is what it allows. -/
def Trusts : (q : Statement) → (q.Result → Route) → Prop
  | .getCachedCallAuth _ _ _, next => ∀ cached, next cached = .done .forwarded → cached = some true
  | _, _ => True

abbrev KeepsPre (a : Request) (q : Statement) (next : q.Result → Route) : Prop :=
  Trusts q next ∧ service.Local history KeepsSilence Silent pre post a q next

section
variable {inst : InstanceId} {u v : UserId} {kind : SignalKind} {bytes : ℕ}

theorem asserted_conclude {i : ℕ} {authorized : Bool} {reply : Reply} {s : Store} {h : Standing}
    (hauthorized : authorized = true → ∀ n, Stands h u v n → i < n) :
    Asserted pre post i (.webrtcSignal inst u v kind bytes) s h
      (conclude inst u v kind authorized reply) := by
  rw [conclude]
  split_ifs with hkind
  · rintro _ _ _ _ ha - n hn
    rw [hkind] at ha
    cases ha
  · exact hauthorized

theorem along_conclude {authorized : Bool} {reply : Reply}
    (hreply : reply = .forwarded → authorized = true) :
    (conclude inst u v kind authorized reply).Along
      (KeepsPre (.webrtcSignal inst u v kind bytes)) := by
  rw [conclude]
  split_ifs
  · trivial
  · refine ⟨⟨trivial, fun p i r store h _ _ hpre => ?_⟩, fun _ => trivial⟩
    rintro _ _ _ _ ha hb n hn
    cases ha
    exact hpre (hreply hb) n hn

theorem along_authorize : (authorize inst u v kind).Along
    (KeepsPre (.webrtcSignal inst u v kind bytes)) := by
  have hrejected : ∀ {code}, Reply.rejected code = .forwarded → false = true := Reply.noConfusion
  have hdenied : ∀ {P : Prop}, false = true → P := fun h => absurd h Bool.false_ne_true
  refine .request ⟨trivial, fun p i chatIds store h _ _ _ => ?_⟩ fun chatIds =>
    .ite (fun _ => along_conclude hrejected) fun _ =>
      .request ⟨trivial, fun p i shared store h _ _ _ => ?_⟩ fun shared =>
        .ite (fun _ => along_conclude hrejected) fun _ =>
          .request ⟨trivial, fun p i blocked store h _ hI _ => ?_⟩ fun blocked =>
            .ite (fun _ => along_conclude hrejected) fun _ => along_conclude fun _ => rfl
  · dsimp only
    split_ifs
    · exact asserted_conclude hdenied
    · trivial
  · dsimp only
    split_ifs
    · exact asserted_conclude hdenied
    · trivial
  · dsimp only
    split_ifs with hb
    · exact asserted_conclude hdenied
    · -- No row of a block was found, so that none stands.
      refine asserted_conclude fun _ n hn => absurd ?_ hb
      obtain rfl := congrArg Prod.fst h
      exact Bool.or_eq_true_iff.2
        (hn.imp (fun h => decide_eq_true (hI.row _ n h)) fun h => decide_eq_true (hI.row _ n h))

theorem along_webrtcSignal : (webrtcSignal inst u v kind bytes).Along
    (KeepsPre (.webrtcSignal inst u v kind bytes)) := by
  refine .ite (fun _ => .ite (fun _ => trivial) fun _ =>
    .request ⟨fun cached hdone => ?_, fun p i cached store h _ hI _ => ?_⟩ fun cached => ?_)
      fun _ => along_authorize
  · match cached with
    | some true => rfl
    | some false => cases hdone
    | none => cases hdone
  · obtain rfl := congrArg Prod.fst h
    dsimp only
    rcases getCachedCallAuth_cases p.1.store inst u v with ⟨hnone, -⟩ | ⟨e, hget, hnow, heq⟩
    · have hcached : (service.answer p.1.store (.getCachedCallAuth inst u v)).1 = none := hnone
      rw [hcached]
      trivial
    · have hcached : (service.answer p.1.store (.getCachedCallAuth inst u v)).1 =
          some e.authorized := congrArg Prod.fst heq
      rw [hcached]
      cases hauth : e.authorized with
      | false => exact fun _ _ _ _ _ hb => Reply.noConfusion hb
      | true =>
        rintro _ _ _ _ ha - n hn
        cases ha
        exact absurd (hI.denied _ _ _ n e hn hget hauth) (Nat.not_le.2 hnow)
  · match cached with
    | some true | some false => trivial
    | none => exact along_authorize

end

/-- A request that is no frame is not forwarded, and keeps no decision. -/
theorem local_other {a : Request} {q : Statement} {next : q.Result → Route}
    (ha : ∀ inst u v bytes, a ≠ .webrtcSignal inst u v .relay_frame bytes)
    (hnext : ∀ r inst u v, ∀ next', next r ≠ .ask (.setCachedCallAuth inst u v true) next') :
    service.Local history KeepsSilence Silent pre post a q next := by
  intro p i r store _ _ _ _
  cases hr : next r with
  | done b => exact fun inst u v bytes hframe => absurd hframe (ha inst u v bytes)
  | ask q' next' =>
    cases q' with
    | setCachedCallAuth inst u v authorized =>
      cases authorized with
      | false => exact fun h => absurd h Bool.false_ne_true
      | true => exact absurd hr (hnext r inst u v next')
    | _ => trivial

theorem along_handle (a : Request) : (handle a).Along (KeepsPre a) := by
  cases a with
  | webrtcSignal inst u v kind bytes => exact along_webrtcSignal
  | postBlock inst userId targetId =>
    have hlocal : ∀ {q : Statement} {next : q.Result → Route},
        (∀ r inst u v next', next r ≠ .ask (.setCachedCallAuth inst u v true) next') →
        service.Local history KeepsSilence Silent pre post (.postBlock inst userId targetId) q next :=
      local_other fun _ _ _ _ => Request.noConfusion
    refine .ite (fun _ => trivial) fun _ => .request
      ⟨trivial, hlocal fun found _ _ _ next' => ?_⟩ fun found => .ite (fun _ => trivial) fun _ =>
        .request ⟨trivial, hlocal fun _ _ _ _ next' => by simp⟩ fun _ =>
          .request ⟨trivial, hlocal fun _ _ _ _ next' => by simp⟩ fun _ => trivial
    cases found <;> simp
  | deleteBlock inst userId targetId =>
    have hlocal : ∀ {q : Statement} {next : q.Result → Route},
        (∀ r inst u v next', next r ≠ .ask (.setCachedCallAuth inst u v true) next') →
        service.Local history KeepsSilence Silent pre post (.deleteBlock inst userId targetId) q
          next := local_other fun _ _ _ _ => Request.noConfusion
    exact .request ⟨trivial, hlocal fun _ _ _ _ next' => by simp⟩ fun _ =>
      .request ⟨trivial, hlocal fun _ _ _ _ next' => by simp⟩ fun _ => trivial
  | sweep _ | setMembers _ | elapse _ =>
    exact .request ⟨trivial, local_other (fun _ _ _ _ => Request.noConfusion)
      fun _ _ _ _ next' => by simp⟩ fun _ => trivial

/-- The first statement of a request keeps no decision, and no request is forwarded without
    one. -/
theorem asserted_handle (i : ℕ) (a : Request) (s : Store) (h : Standing) :
    Asserted pre post i a s h (handle a) := by
  cases a with
  | webrtcSignal inst u v kind bytes =>
    change Asserted _ _ _ _ _ _ (webrtcSignal inst u v kind bytes)
    rw [webrtcSignal]
    split_ifs
    · exact fun _ _ _ _ _ hb => Reply.noConfusion hb
    · trivial
    · trivial
  | postBlock inst userId targetId =>
    change Asserted _ _ _ _ _ _ (postBlock inst userId targetId)
    rw [postBlock]
    split_ifs
    · exact fun _ _ _ _ _ hb => Reply.noConfusion hb
    · trivial
  | deleteBlock _ _ _ | sweep _ | setMembers _ | elapse _ => trivial

/-! ## Every step -/

theorem Silent.insertBlock {s : Store} {h : Standing} (hs : Silent s h) (x : UserId × UserId) :
    Silent (s.answer (.insertBlock x.1 x.2)).2 h := by
  rw [Store.answer]
  split_ifs
  · exact hs
  · exact ⟨fun y n hy => List.mem_append_left _ (hs.row y n hy), hs.denied, hs.ttl⟩

theorem Silent.deleteBlock {s : Store} {h : Standing} (hs : Silent s h) (x : UserId × UserId) :
    Silent (s.answer (.deleteBlock x.1 x.2)).2 (h.delete x) := by
  have hget : ∀ {y n}, (h.delete x).get? y = some n → y ≠ x ∧ h.get? y = some n := by
    intro y n hy
    rw [InsMap.get?_delete] at hy
    split_ifs at hy with hyx
    exact ⟨hyx, hy⟩
  refine ⟨fun y n hy => ?_, fun inst a b n e hn => hs.denied inst a b n e ?_, hs.ttl⟩
  · exact List.mem_filter.2 ⟨hs.row y n (hget hy).2, decide_eq_true (hget hy).1⟩
  · exact hn.imp (fun h => (hget h).2) fun h => (hget h).2

theorem Silent.setCachedCallAuth {s : Store} {h : Standing} (hs : Silent s h) {inst : InstanceId}
    {u v : UserId} {authorized : Bool}
    (hok : authorized = true → h.has (u, v) = false ∧ h.has (v, u) = false) :
    Silent (s.setCachedCallAuth inst u v authorized) h := by
  have hget : ∀ {k e}, (s.setCachedCallAuth inst u v authorized).cache.get? k = some e →
      (k = (inst, u, v) ∧ e = ⟨authorized, s.now + DEFAULT_TTL_MS⟩) ∨ s.cache.get? k = some e := by
    intro k e he
    rw [Store.setCachedCallAuth, InsMap.get?_set] at he
    split_ifs at he with hk
    · exact .inl ⟨hk, (Option.some.inj he).symm⟩
    · exact .inr he
  refine ⟨hs.row, fun inst' a b n e hn he hauth => ?_, fun k e he => ?_⟩
  · rcases hget he with ⟨hk, rfl⟩ | he
    · cases hk
      obtain ⟨huv, hvu⟩ := hok hauth
      rcases hn with hn | hn
      · exact absurd hn (by rw [InsMap.has_eq_false.1 huv]; exact (Option.some_ne_none n).symm)
      · exact absurd hn (by rw [InsMap.has_eq_false.1 hvu]; exact (Option.some_ne_none n).symm)
    · exact hs.denied inst' a b n e hn he hauth
  · rcases hget he with ⟨-, rfl⟩ | he
    · exact Nat.le_refl _
    · exact hs.ttl k e he

/-- What is left in the cache when the entries of a pair were taken out of it. -/
theorem get?_invalidate {s : Store} {inst : InstanceId} {u v : UserId}
    {k : InstanceId × UserId × UserId} {e : Entry}
    (h : (s.invalidateCallAuth inst u v).cache.get? k = some e) :
    s.cache.get? k = some e ∧ k ≠ (inst, u, v) ∧ k ≠ (inst, v, u) := by
  rw [Store.invalidateCallAuth, InsMap.get?_delete, InsMap.get?_delete] at h
  split_ifs at h with hvu huv
  exact ⟨h, huv, hvu⟩

/-- A block that comes to stand has no decision against it. -/
theorem Silent.stand {s : Store} {h : Standing} (hs : Silent s h) {inst : InstanceId} {u v : UserId}
    (n : ℕ) (hrow : (u, v) ∈ s.userBlocks)
    (hok : ∀ e ∈ s.cache.entries, Elsewhere inst u v e → e.2.expiresAt ≤ s.now) :
    Silent (s.invalidateCallAuth inst u v) (h.set (u, v) n) := by
  have hget : ∀ {y m}, (h.set (u, v) n).get? y = some m → y = (u, v) ∨ h.get? y = some m := by
    intro y m hy
    rw [InsMap.get?_set] at hy
    split_ifs at hy with hk
    · exact .inl hk
    · exact .inr hy
  have hpair : ∀ {inst' a b e}, (s.invalidateCallAuth inst u v).cache.get? (inst', a, b) = some e →
      (a, b) = (u, v) ∨ (a, b) = (v, u) → e.authorized = true → e.expiresAt ≤ s.now := by
    intro inst' a b e he hab hauth
    obtain ⟨he, huv, hvu⟩ := get?_invalidate he
    refine hok ((inst', a, b), e) (InsMap.get?_eq_some_iff.1 he) ⟨fun hinst => ?_, hab, hauth⟩
    obtain rfl : inst' = inst := hinst
    exact hab.elim (fun h => huv (Prod.ext rfl h)) fun h => hvu (Prod.ext rfl h)
  refine ⟨fun y m hy => ?_, fun inst' a b m e hm he hauth => ?_, fun k e he =>
    hs.ttl k e (get?_invalidate he).1⟩
  · rcases hget hy with rfl | hy
    · exact hrow
    · exact hs.row y m hy
  · rcases hm with hm | hm
    · rcases hget hm with hab | hm
      · exact hpair he (.inl hab) hauth
      · exact hs.denied inst' a b m e (.inl hm) (get?_invalidate he).1 hauth
    · rcases hget hm with hba | hm
      · obtain ⟨rfl, rfl⟩ := Prod.mk.inj hba
        exact hpair he (.inr rfl) hauth
      · exact hs.denied inst' a b m e (.inr hm) (get?_invalidate he).1 hauth

section
variable {p : AuthState × Standing} {i : ℕ} {a : Request} {q : Statement} {next : q.Result → Route}

theorem Silent.served (hs : Silent p.1.store p.2) (hok : KeepsSilence p i a q) :
    Silent (service.answer p.1.store q).2 (service.served history p i a q next).2 := by
  cases q with
  | insertBlock x y => exact hs.insertBlock (x, y)
  | deleteBlock x y => exact hs.deleteBlock (x, y)
  | setCachedCallAuth inst u v authorized => exact hs.setCachedCallAuth hok
  | invalidateCallAuth inst u v =>
    change Silent (p.1.store.invalidateCallAuth inst u v) (ite _ _ _)
    split_ifs with hstands
    · exact hs.stand _ hstands.2.1 (hok ⟨hstands.1, hstands.2.1⟩)
    · exact hs.forget fun k e he => (get?_invalidate he).1
  | getCachedCallAuth inst u v =>
    change Silent (p.1.store.getCachedCallAuth inst u v).2 p.2
    rcases getCachedCallAuth_cases p.1.store inst u v with ⟨-, heq | heq⟩ | ⟨e, -, -, heq⟩
    · rw [heq]
      exact hs
    · rw [heq]
      refine hs.forget fun k e he => ?_
      rw [InsMap.get?_delete] at he
      split_ifs at he
      exact he
    · rw [heq]
      exact hs
  | sweep inst => exact hs.forget fun k e => get?_sweep
  | elapse ms =>
    refine ⟨hs.row, fun inst a b n e hn he hauth => ?_, fun k e he => ?_⟩
    · exact Nat.le_trans (hs.denied inst a b n e hn he hauth) (Nat.le_add_right _ _)
    · exact Nat.le_trans (hs.ttl k e he) (Nat.add_le_add_right (Nat.le_add_right _ _) _)
  | setMembers chatMembers => exact ⟨hs.row, hs.denied, hs.ttl⟩
  | selectUser _ | isBlocked _ _ | selectChats _ | selectShared _ _ => exact hs

/-- A block that stands after a step stood before it, or is answered by it. -/
theorem get?_served {x : UserId × UserId} {n : ℕ}
    (hx : (service.served history p i a q next).2.get? x = some n) :
    p.2.get? x = some n ∨ n = p.1.received := by
  cases q with
  | invalidateCallAuth inst u v =>
    change (ite _ _ _ : Standing).get? x = some n at hx
    split_ifs at hx
    · rw [InsMap.get?_set] at hx
      split_ifs at hx
      · exact .inr (Option.some.inj hx).symm
      · exact .inl hx
    · exact .inl hx
  | deleteBlock u v =>
    change (p.2.delete (u, v)).get? x = some n at hx
    rw [InsMap.get?_delete] at hx
    split_ifs at hx
    exact .inl hx
  | _ => exact .inl hx

theorem Stands.of_served {u v : UserId} {n : ℕ}
    (hn : Stands (service.served history p i a q next).2 u v n) :
    Stands p.2 u v n ∨ n = p.1.received := by
  rcases hn with hn | hn
  · exact (get?_served hn).imp_left .inl
  · exact (get?_served hn).imp_left .inr

end

/-! ## Every run -/

/-- Nothing was decided yet. -/
def Store.IsInitial (s : Store) : Prop := s.cache = ∅

/-- The runs that keep no decision against a block. -/
abbrev silentMachine : Machine (AuthState × Standing) (Event Request) :=
  (service.recorded history Store.IsInitial).restrict (Guarded (fun _ _ => True) KeepsSilence)

theorem outlined_of_run {p : AuthState × Standing} (hp : silentMachine.Reachable p) :
    Outlined Silent KeepsPre pre p := by
  refine Service.outline (P := fun _ => Trusts) _ _ _ ?_ along_handle ?_ ?_ ?_ ?_ hp
  · intro store hstore
    refine ⟨fun x n hx => ?_, fun inst a b n e _ he => ?_, fun k e he => ?_⟩
    · exact absurd hx (by rw [show history.start = ∅ from rfl, InsMap.get?_empty]; simp)
    · exact absurd he (by rw [hstore, InsMap.get?_empty]; simp)
    · exact absurd he (by rw [hstore, InsMap.get?_empty]; simp)
  · exact fun p a _ h => ⟨h.holds, asserted_handle _ a _ _⟩
  · exact fun p a _ _ j b q next _ h => h
  · exact fun p i a q next hok h _ _ => h.holds.served hok
  · intro p i a q next _ h hi j b q' next' _ hj
    have hpre := h.asserted j b q' next' hj
    cases q' with
    | setCachedCallAuth inst u v authorized =>
      intro hauth n hn
      rcases Stands.of_served hn with hn | rfl
      · exact hpre hauth n hn
      · exact h.named j _ hj
    | _ => trivial

/-- A request is not forwarded when it is received. -/
theorem not_forwarded_at_once (a : Request) : handle a ≠ .done .forwarded := by
  intro hdone
  cases a with
  | webrtcSignal inst u v kind bytes =>
    change webrtcSignal inst u v kind bytes = _ at hdone
    rw [webrtcSignal] at hdone
    split_ifs at hdone <;> cases hdone
  | postBlock inst userId targetId =>
    change postBlock inst userId targetId = _ at hdone
    rw [postBlock] at hdone
    split_ifs at hdone <;> cases hdone
  | _ => cases hdone

/-- A frame that is forwarded came before the answer of every block between its two users that
    stands; one that is forwarded on a decision that was kept is forwarded within its time. -/
theorem silent_of_run {p p' : AuthState × Standing} {e : Event Request} {u v : UserId}
    (hp : silentMachine.Reachable p) (hstep : silentMachine.step p e = some p')
    (hforwards : Forwards p.1 p'.1 u v) : ∃ i, e = .serve i ∧ (∀ n, Stands p'.2 u v n → i < n) ∧
      ∀ inst a b, p.1.waiting i = some (.getCachedCallAuth inst a b) →
        ∃ entry, p.1.store.cache.get? (inst, a, b) = some entry ∧ entry.authorized = true ∧
          p.1.store.now < entry.expiresAt ∧ entry.expiresAt ≤ p.1.store.now + DEFAULT_TTL_MS := by
  have hout := outlined_of_run hp
  obtain ⟨inst, bytes, hreplies⟩ := hforwards
  obtain ⟨hok, hstep⟩ := Machine.restrict_step.1 hstep
  rcases recorded_cases hstep with ⟨a, rfl, rfl⟩ | ⟨i, a, q, next, rfl, hget, rfl⟩
  · -- The frame would be forwarded when it is received.
    rw [Service.received, goOn_replies] at hreplies
    have hmem := List.append_cancel_left hreplies ▸ List.mem_singleton_self _
    obtain ⟨rfl, hdone⟩ := mem_replyOf.1 hmem
    exact absurd hdone (not_forwarded_at_once (.webrtcSignal inst u v .relay_frame bytes))
  · rw [Service.served, goOn_replies] at hreplies
    have hmem := List.append_cancel_left hreplies ▸ List.mem_singleton_self _
    obtain ⟨rfl, hnext⟩ := mem_replyOf.1 hmem
    have hserved := hout.served hget (hok (_, q) (by rw [State.asking, hget]; rfl))
    rw [hnext] at hserved
    refine ⟨i, rfl, hserved inst u v bytes rfl rfl, fun inst' a' b' hwaiting => ?_⟩
    obtain rfl : q = .getCachedCallAuth inst' a' b' := by
      rw [State.waiting, hget] at hwaiting
      exact Option.some.inj hwaiting
    have hcached := (hout.along i _ _ hget).1.1 _ hnext
    rcases getCachedCallAuth_cases p.1.store inst' a' b' with ⟨hnone, -⟩ | ⟨e, he, hnow, heq⟩
    · exact absurd (hnone.symm.trans hcached) (Option.some_ne_none _).symm
    · have hauth : some e.authorized = some true := (congrArg Prod.fst heq).symm.trans hcached
      exact ⟨e, he, Option.some.inj hauth, hnow, hout.holds.ttl _ e he⟩

namespace Sample

/-- Two users who share a chat. -/
def store : Store where
  users := [1, 2]
  chatMembers := [(7, 1), (7, 2)]
  userBlocks := []
  cache := ∅
  now := 0

/-- User 2 blocks user 1 while an offer of user 1 is authorized; a frame comes afterwards. -/
def blocked : List (Event Request) :=
  [.receive (.webrtcSignal 0 1 2 .relay_handshake 500), .serve 0, .serve 0, .serve 0,
    .receive (.postBlock 0 2 1), .serve 1, .serve 1, .serve 1, .serve 0,
    .receive (.webrtcSignal 0 1 2 .relay_frame 100)]

/-- User 2 blocks user 1 and lifts the block, and an offer of user 1 is authorized before a
    frame comes. -/
def unblocked : List (Event Request) :=
  [.receive (.postBlock 0 2 1), .serve 0, .serve 0, .serve 0,
    .receive (.deleteBlock 0 2 1), .serve 1, .serve 1,
    .receive (.webrtcSignal 0 1 2 .relay_handshake 500), .serve 2, .serve 2, .serve 2, .serve 2,
    .receive (.webrtcSignal 0 1 2 .relay_frame 100)]

end Sample

section
open Sample

/-- A frame that comes after the answer of a block is forwarded, while the block stands. -/
theorem heard_after_block : ¬∀ p p' e u v,
    (service.recorded history Store.IsInitial).Reachable p →
    (service.recorded history Store.IsInitial).step p e = some p' → Forwards p.1 p'.1 u v →
    ∃ i, e = .serve i ∧ ∀ n, Stands p'.2 u v n → i < n := by
  intro h
  have hrun : ((service.recorded history Store.IsInitial).run (.start store, ∅) blocked).bind
      (fun p => ((service.recorded history Store.IsInitial).step p (.serve 2)).map fun p' =>
        (decide (p'.1.replies = p.1.replies ++
          [(.webrtcSignal 0 1 2 .relay_frame 100, .forwarded)]), p'.2.get? (2, 1))) =
      some (true, some 2) := by decide
  obtain ⟨p, hp, hstep⟩ := Option.bind_eq_some_iff.1 hrun
  obtain ⟨p', hp', hend⟩ := Option.map_eq_some_iff.1 hstep
  obtain ⟨hreplies, hstands⟩ := Prod.mk.inj hend
  have hreachable := Machine.reachable_of_run hp ⟨⟨store, rfl, rfl⟩, rfl⟩
  obtain ⟨i, hi, hlt⟩ := h p p' (.serve 2) 1 2 hreachable hp' ⟨0, 100, of_decide_eq_true hreplies⟩
  cases hi
  exact Nat.lt_irrefl 2 (hlt 2 (.inr hstands))

theorem silent_of_run_unblocked : ∃ p p', silentMachine.run (.start store, ∅) unblocked = some p ∧
    silentMachine.step p (.serve 3) = some p' ∧ Forwards p.1 p'.1 1 2 ∧
      ∃ i, Event.serve (A := Request) 3 = .serve i ∧ (∀ n, Stands p'.2 1 2 n → i < n) ∧
        ∀ inst a b, p.1.waiting i = some (.getCachedCallAuth inst a b) →
          ∃ entry, p.1.store.cache.get? (inst, a, b) = some entry ∧ entry.authorized = true ∧
            p.1.store.now < entry.expiresAt ∧
            entry.expiresAt ≤ p.1.store.now + DEFAULT_TTL_MS := by
  have hrun : (silentMachine.run (.start store, ∅) unblocked).bind (fun p =>
      (silentMachine.step p (.serve 3)).map fun p' => decide (p'.1.replies = p.1.replies ++
        [(.webrtcSignal 0 1 2 .relay_frame 100, .forwarded)])) = some true := by decide
  obtain ⟨p, hp, hstep⟩ := Option.bind_eq_some_iff.1 hrun
  obtain ⟨p', hp', hreplies⟩ := Option.map_eq_some_iff.1 hstep
  have hreachable := Machine.reachable_of_run hp ⟨⟨store, rfl, rfl⟩, rfl⟩
  have hforwards : Forwards p.1 p'.1 1 2 := ⟨0, 100, of_decide_eq_true hreplies⟩
  exact ⟨p, p', hp, hp', hforwards, silent_of_run hreachable hp' hforwards⟩

end

end OneToThree.CallAuth
