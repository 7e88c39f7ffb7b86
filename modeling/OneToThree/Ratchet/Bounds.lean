import OneToThree.Ratchet.Delivery
import OneToThree.Ratchet.Session

/-!
# The bounds of the skipped keys

Whatever the messages that arrive, and however the calls are interleaved, the store of
skipped keys stays within its bounds (`RatchetState.Bounded`), and a call derives a bounded
number of chain keys (`bounded_of_reachable`).

* The keys in a bucket never exceed `maxSkip`, since the size of the bucket is looked at
  before each write. The total never exceeds `globalSkipCap`: the running total of
  `cacheSkipped` counts a key that is overwritten once more, and so is not below the number
  of keys stored (`cacheLoop_bounded`).
* The keys that one run of the loop writes have different counters, and stay in their
  bucket. So the loop ends, by its look at the size, after `maxSkip` derivations at the
  latest, whether it adds to the bucket or overwrites it (`cacheLoopDerivations_le`).
-/

namespace OneToThree.Ratchet

variable {P : Primitives}

/-- The store is within its bounds. -/
structure RatchetState.Bounded (state : RatchetState) : Prop where
  nonempty : ∀ b bucket, state.skipped.get? b = some bucket → bucket.size ≠ 0
  bucket : ∀ b bucket, state.skipped.get? b = some bucket → bucket.size ≤ state.maxSkip
  total : totalSkipped state ≤ globalSkipCap

/-! ## Writing and dropping -/

/-- The bounds are about the store and `maxSkip` only. -/
theorem RatchetState.Bounded.congr {state state' : RatchetState} (h : state.Bounded)
    (hskipped : state'.skipped = state.skipped) (hmax : state'.maxSkip = state.maxSkip) :
    state'.Bounded where
  nonempty := by rw [hskipped]; exact h.nonempty
  bucket := by rw [hskipped, hmax]; exact h.bucket
  total := by rw [totalSkipped, hskipped]; exact h.total

theorem RatchetState.bounded_of_empty {state : RatchetState} (h : state.skipped = ∅) :
    state.Bounded where
  nonempty b bucket hb := by simp [h] at hb
  bucket b bucket hb := by simp [h] at hb
  total := by rw [totalSkipped, h]; exact Nat.zero_le _

/-- Replacing a bucket by one that is within the bounds. -/
theorem RatchetState.Bounded.set {state : RatchetState} (h : state.Bounded) {key : String}
    {bucket : SkippedKeyBucket} (hne : bucket.size ≠ 0) (hle : bucket.size ≤ state.maxSkip)
    (htotal : (state.skipped.set key bucket).total InsMap.size ≤ globalSkipCap) :
    { state with skipped := state.skipped.set key bucket }.Bounded where
  nonempty b bucket' hb := by
    rw [InsMap.get?_set] at hb
    split_ifs at hb
    · rwa [← Option.some.inj hb]
    · exact h.nonempty b bucket' hb
  bucket b bucket' hb := by
    rw [InsMap.get?_set] at hb
    split_ifs at hb
    · rwa [← Option.some.inj hb]
    · exact h.bucket b bucket' hb
  total := htotal

theorem RatchetState.Bounded.delete {state : RatchetState} (h : state.Bounded) (key : String) :
    { state with skipped := state.skipped.delete key }.Bounded where
  nonempty b bucket hb := by
    rw [InsMap.get?_delete] at hb
    split_ifs at hb
    exact h.nonempty b bucket hb
  bucket b bucket hb := by
    rw [InsMap.get?_delete] at hb
    split_ifs at hb
    exact h.bucket b bucket hb
  total := by
    have hdelete := InsMap.total_delete InsMap.size state.skipped key
    have := h.total
    simp only [totalSkipped] at this ⊢
    omega

/-- A write shorter than the bucket it replaces does not add to the total. -/
theorem total_set_le {skipped : InsMap String SkippedKeyBucket} {key : String}
    {bucket bucket' : SkippedKeyBucket} (h : skipped.get? key = some bucket)
    (hle : bucket'.size ≤ bucket.size) :
    (skipped.set key bucket').total InsMap.size ≤ skipped.total InsMap.size := by
  have hset := InsMap.total_set InsMap.size skipped key bucket'
  rw [h, Option.elim_some] at hset
  omega

/-- Dropping a key, and its bucket with the last one, keeps the bounds. -/
theorem RatchetState.Bounded.dropSkipped {state : RatchetState} (h : state.Bounded)
    (dhPub : Bytes) (counter : ℕ) : (state.dropSkipped dhPub counter).Bounded := by
  unfold RatchetState.dropSkipped
  split
  · exact h
  · rename_i bucket hbucket
    dsimp only
    split_ifs with hsize
    · exact h.delete _
    · have hle := InsMap.size_delete_le bucket counter
      exact h.set hsize (Nat.le_trans hle (h.bucket _ _ hbucket))
        (Nat.le_trans (total_set_le hbucket hle) h.total)

/-! ## Caching -/

/-- The bounds are kept by caching, and the running total is not below the number of keys. -/
theorem cacheLoop_bounded {state : RatchetState} (h : state.Bounded) (bucketKey : String) (n : ℕ)
    (chain : Bytes) {total : ℕ} (htotal : totalSkipped state ≤ total) :
    (cacheLoop P bucketKey n chain total state).2.Bounded := by
  induction n generalizing chain total state with
  | zero => exact h
  | succ n ih =>
    unfold cacheLoop
    dsimp only
    split_ifs with hroom hcap
    · exact h
    · exact h
    · have hstore := sum_store_le state.skipped bucketKey state.recvCounter
        (kdfMessageKey P chain).messageKey
      have hgrown := size_set_le ((state.skipped.get? bucketKey).getD ∅) state.recvCounter
        (kdfMessageKey P chain).messageKey
      rw [totalSkipped] at htotal
      have hset := h.set (InsMap.size_set_ne_zero ((state.skipped.get? bucketKey).getD ∅)
        state.recvCounter (kdfMessageKey P chain).messageKey) (by omega)
        (Nat.le_trans hstore (by omega))
      refine ih (RatchetState.Bounded.congr hset (by rfl) (by rfl)) _ ?_
      simp only [totalSkipped]
      omega

theorem cacheSkipped_bounded {state : RatchetState} (h : state.Bounded) (remote : Bytes)
    (upTo : ℕ) : (cacheSkipped P state remote upTo).2.Bounded := by
  unfold cacheSkipped
  split
  · exact h
  · split_ifs
    · exact h
    · exact cacheLoop_bounded h _ _ _ (Nat.le_refl _)

/-! ## Derivations -/

/-- The `k` counters before that of the state have keys in the bucket. -/
def RatchetState.Passed (state : RatchetState) (bucketKey : String) (k : ℕ) : Prop :=
  k ≤ state.recvCounter ∧ ∀ c, state.recvCounter - k ≤ c → c < state.recvCounter →
    ((state.skipped.get? bucketKey).getD ∅).has c = true

theorem RatchetState.Passed.le_size {state : RatchetState} {bucketKey : String} {k : ℕ}
    (h : state.Passed bucketKey k) : k ≤ ((state.skipped.get? bucketKey).getD ∅).size := by
  have hhas : ∀ c ∈ List.range' (state.recvCounter - k) k,
      ((state.skipped.get? bucketKey).getD ∅).has c = true := fun c hc => by
    obtain ⟨hle, hlt⟩ := List.mem_range'_1.1 hc
    exact h.2 c hle (by have := h.1; omega)
  simpa using InsMap.length_le_size (List.nodup_range' ..) hhas

/-- A run of the loop passes at most `maxSkip` counters, whether their keys are new in the
    bucket or overwrite others. -/
theorem cacheLoopDerivations_le {bucketKey : String} {n : ℕ} {chain : Bytes} {total k : ℕ}
    {state : RatchetState} (h : state.Passed bucketKey k) (hk : k ≤ state.maxSkip) :
    cacheLoopDerivations P bucketKey n chain total state + k ≤ state.maxSkip := by
  induction n generalizing chain total k state with
  | zero => simpa [cacheLoopDerivations] using hk
  | succ n ih =>
    unfold cacheLoopDerivations
    dsimp only
    split_ifs with hroom hcap
    · omega
    · omega
    · have hsize := h.le_size
      have hpassed : RatchetState.Passed { state with
          recvChain := some (kdfMessageKey P chain).nextChainKey
          skipped := state.skipped.set bucketKey (((state.skipped.get? bucketKey).getD ∅).set
            state.recvCounter (kdfMessageKey P chain).messageKey)
          recvCounter := state.recvCounter + 1 } bucketKey (k + 1) := by
        obtain ⟨hle, hhas⟩ := h
        refine ⟨Nat.succ_le_succ hle, fun c hfrom hto => ?_⟩
        dsimp only at hfrom hto ⊢
        rw [InsMap.get?_set_self, Option.getD_some, InsMap.has_set]
        by_cases hc : c = state.recvCounter
        · simp [hc]
        · rw [hhas c (by omega) (by omega), Bool.or_true]
      rw [Nat.add_comm 1, Nat.add_assoc, Nat.add_comm 1]
      exact ih hpassed (by dsimp only; omega)

theorem cacheSkippedDerivations_le (state : RatchetState) (remote : Bytes) (upTo : ℕ) :
    cacheSkippedDerivations P state remote upTo ≤ state.maxSkip := by
  unfold cacheSkippedDerivations
  split
  · exact Nat.zero_le _
  · split_ifs
    · exact Nat.zero_le _
    · refine cacheLoopDerivations_le (k := 0) ⟨Nat.zero_le _, fun c hfrom hto => ?_⟩
        (Nat.zero_le _)
      omega

theorem turnToDerivations_le (state : RatchetState) (header : RatchetHeader) :
    turnToDerivations P state header ≤ state.maxSkip := by
  unfold turnToDerivations
  split_ifs
  · exact Nat.zero_le _
  · split
    · exact Nat.zero_le _
    · exact cacheSkippedDerivations_le ..

/-! ## Taking a key -/

theorem turnTo_bounded (fresh : KeyPair) {state : RatchetState} (h : state.Bounded)
    (header : RatchetHeader) :
    (turnTo P fresh state header).2.Bounded ∧
      (turnTo P fresh state header).2.maxSkip = state.maxSkip := by
  have hstep : ∀ cached : RatchetState, cached.Bounded → cached.maxSkip = state.maxSkip →
      (dhRatchetStep P fresh cached header.dhPub).2.Bounded ∧
        (dhRatchetStep P fresh cached header.dhPub).2.maxSkip = state.maxSkip := by
    intro cached hcached hmax
    obtain ⟨hskipped, hmax', -⟩ := dhRatchetStep_frame (P := P) fresh cached header.dhPub
    exact ⟨hcached.congr hskipped hmax', hmax'.trans hmax⟩
  unfold turnTo
  split_ifs
  · exact ⟨h, rfl⟩
  · split
    · exact hstep state h rfl
    · rename_i remote _
      have hcached := cacheSkipped_bounded (P := P) h remote header.previousChainLength
      have hmax : (cacheSkipped P state remote header.previousChainLength).2.maxSkip =
          state.maxSkip := by rw [cacheSkipped_frame]
      split
      · rename_i hcache
        rw [hcache] at hcached hmax
        exact ⟨hcached, hmax⟩
      · rename_i hcache
        rw [hcache] at hcached hmax
        exact hstep _ hcached hmax

theorem takeMessageKey_bounded (fresh : KeyPair) {state : RatchetState} (h : state.Bounded)
    (header : RatchetHeader) :
    (takeMessageKey P fresh state header).2.Bounded ∧
      (takeMessageKey P fresh state header).2.maxSkip = state.maxSkip := by
  have hturned := turnTo_bounded (P := P) fresh h header
  unfold takeMessageKey
  split
  · rename_i hturn
    rwa [hturn] at hturned
  · rename_i turned hturn
    rw [hturn] at hturned
    have hcached := cacheSkipped_bounded (P := P) hturned.1 header.dhPub header.counter
    have hmax : (cacheSkipped P turned header.dhPub header.counter).2.maxSkip = state.maxSkip := by
      rw [cacheSkipped_frame]
      exact hturned.2
    split
    · rename_i hcache
      rw [hcache] at hcached hmax
      exact ⟨hcached, hmax⟩
    · rename_i hcache
      rw [hcache] at hcached hmax
      split
      · exact ⟨hcached, hmax⟩
      · exact ⟨hcached.congr rfl rfl, hmax⟩

/-- Two runs of the loop, one for each chain, and the key of the message. -/
theorem takeMessageKeyDerivations_le (fresh : KeyPair) {state : RatchetState} (h : state.Bounded)
    (header : RatchetHeader) :
    takeMessageKeyDerivations P fresh state header ≤ 2 * state.maxSkip + 1 := by
  have hturn := turnToDerivations_le (P := P) state header
  have hmax := (turnTo_bounded (P := P) fresh h header).2
  unfold takeMessageKeyDerivations
  split
  · omega
  · rename_i turned hturned
    rw [hturned] at hmax
    dsimp only at hmax
    have hcache := cacheSkippedDerivations_le (P := P) turned header.dhPub header.counter
    have hsum : ∀ n ≤ 1, turnToDerivations P state header +
        (cacheSkippedDerivations P turned header.dhPub header.counter + n) ≤
          2 * state.maxSkip + 1 := by omega
    split
    · exact hsum 0 (Nat.zero_le _)
    · split_ifs
      · exact hsum 0 (Nat.zero_le _)
      · exact hsum 1 (Nat.le_refl _)

/-! ## Sessions -/

/-- The number of chain keys a suspended call derived: none before it takes its key. -/
def Call.Within (maxSkip : ℕ) (call : Call) : Prop :=
  match call.stage with
  | .missed _ _ => call.derived = 0
  | _ => call.derived ≤ 2 * maxSkip + 1

/-- The store is within its bounds, and so are the calls. -/
structure Session.Within (maxSkip : ℕ) (s : Session) : Prop where
  bounded : s.ratchet.Bounded
  limit : s.ratchet.maxSkip = maxSkip
  calls : ∀ call ∈ s.calls, call.Within maxSkip
  returned : ∀ r ∈ s.returned, r.derived ≤ 2 * maxSkip + 1

theorem Call.Within.le {maxSkip : ℕ} {call : Call} (h : call.Within maxSkip) :
    call.derived ≤ 2 * maxSkip + 1 := by
  unfold Call.Within at h
  split at h <;> omega

theorem Call.Within.letGo {maxSkip : ℕ} {call : Call} (h : call.Within maxSkip) (b : String)
    (i : ℕ) : (call.letGo b i).Within maxSkip := by
  unfold Call.letGo
  split
  · split_ifs
    · exact h.le
    · exact h
  · exact h

section
variable {maxSkip : ℕ} {s : Session} (h : s.Within maxSkip)
include h

theorem Session.Within.done (result : Result) {derived : ℕ} (hd : derived ≤ 2 * maxSkip + 1) :
    (s.done result derived).Within maxSkip where
  bounded := h.bounded
  limit := h.limit
  calls := h.calls
  returned r hr := by
    rcases List.mem_append.1 hr with hr | hr
    · exact h.returned r hr
    · rwa [List.mem_singleton.1 hr]

theorem Session.Within.suspend {call : Call} (hcall : call.Within maxSkip) :
    { s with calls := s.calls ++ [call] }.Within maxSkip where
  bounded := h.bounded
  limit := h.limit
  calls c hc := by
    rcases List.mem_append.1 hc with hc | hc
    · exact h.calls c hc
    · rwa [List.mem_singleton.1 hc]
  returned := h.returned

theorem Session.Within.letGo (b : String) (bucket : SkippedKeyBucket) :
    (s.letGo b bucket).Within maxSkip where
  bounded := h.bounded
  limit := h.limit
  calls c hc := by
    obtain ⟨call, hcall, rfl⟩ := List.mem_map.1 hc
    exact (h.calls call hcall).letGo b _
  returned := h.returned

theorem Session.Within.ratchet {state : RatchetState} (hstate : state.Bounded)
    (hmax : state.maxSkip = maxSkip) : { s with ratchet := state }.Within maxSkip :=
  ⟨hstate, hmax, h.calls, h.returned⟩

theorem Session.Within.dropKey (header : RatchetHeader) (held : Option ℕ) :
    (s.dropKey header held).Within maxSkip := by
  have hdrop : { s with ratchet :=
      s.ratchet.dropSkipped header.dhPub header.counter }.Within maxSkip :=
    h.ratchet (h.bounded.dropSkipped _ _) (by rw [dropSkipped_eq]; exact h.limit)
  unfold Session.dropKey
  dsimp only
  cases held with
  | none =>
    dsimp only
    split_ifs
    · exact hdrop.letGo _ _
    · exact hdrop
  | some i =>
    dsimp only
    have hdropped : ∀ dropped, { s with dropped }.Within maxSkip := fun _ =>
      ⟨h.bounded, h.limit, h.calls, h.returned⟩
    split_ifs
    · split
      · exact hdropped _
      · exact ((hdropped _).ratchet (h.bounded.delete _) h.limit).letGo _ _
    · exact hdropped _

/-- A call taken off the suspended ones. -/
theorem Session.Within.takeOff {i : ℕ} {call : Call} (hcall : s.calls[i]? = some call) :
    { s with calls := s.calls.eraseIdx i }.Within maxSkip ∧ call.Within maxSkip :=
  ⟨⟨h.bounded, h.limit, fun c hc => h.calls c (List.mem_of_mem_eraseIdx hc), h.returned⟩,
    h.calls call (List.mem_of_getElem? hcall)⟩

theorem Session.Within.encrypt (plaintext associatedData : Bytes) :
    (s.encrypt P plaintext associatedData).Within maxSkip := by
  cases hchain : s.ratchet.sendChain with
  | none =>
    rw [Session.encrypt_of_none hchain]
    exact h.done _ (Nat.zero_le _)
  | some chain =>
    obtain ⟨message, -, hs⟩ := Session.encrypt_of_some (P := P) hchain plaintext associatedData
    rw [hs]
    refine ⟨h.bounded.congr rfl rfl, h.limit, fun call hcall => ?_, h.returned⟩
    rcases List.mem_append.1 hcall with hcall | hcall
    · exact h.calls call hcall
    · rw [List.mem_singleton.1 hcall]
      exact Nat.le_add_left 1 _

theorem Session.Within.decrypt (message : RatchetMessage) (associatedData : Bytes) :
    (s.decrypt message associatedData).Within maxSkip := by
  unfold Session.decrypt
  refine h.suspend ?_
  cases s.ratchet.skippedKey message.header.dhPub message.header.counter with
  | none => exact rfl
  | some key => exact Nat.zero_le _

theorem Session.Within.take (message : RatchetMessage) (aad : Bytes) (fresh : KeyPair) :
    (s.take P message aad 0 fresh).Within maxSkip := by
  obtain ⟨hbounded, hmax⟩ := takeMessageKey_bounded (P := P) fresh h.bounded message.header
  have hle := takeMessageKeyDerivations_le (P := P) fresh h.bounded message.header
  rw [h.limit] at hle
  have htaken : { s with
      ratchet := (takeMessageKey P fresh s.ratchet message.header).2
      keys := s.keys ++ turnToKeys P fresh s.ratchet message.header
      generated := fresh.publicKey :: s.generated }.Within maxSkip :=
    ⟨hbounded, hmax.trans h.limit, h.calls, h.returned⟩
  unfold Session.take
  dsimp only
  split
  · exact htaken.done _ (by rwa [Nat.zero_add])
  · exact htaken.suspend (show _ ≤ _ by rwa [Nat.zero_add])

theorem Session.Within.goOn {call : Call} (hcall : call.Within maxSkip) {fresh : KeyPair}
    {s' : Session} (hs : s.goOn P call fresh = some s') : s'.Within maxSkip := by
  have hle := hcall.le
  unfold Session.goOn at hs
  unfold Call.Within at hcall
  cases hstage : call.stage with
  | sealing message =>
    rw [hstage] at hs
    obtain rfl := Option.some.inj hs
    exact h.done _ hle
  | missed message aad =>
    simp only [hstage] at hs hcall
    split_ifs at hs
    obtain rfl := Option.some.inj hs
    rw [hcall]
    exact h.take message aad fresh
  | openingSkipped message aad key held =>
    simp only [hstage] at hs
    split at hs
    · obtain rfl := Option.some.inj hs
      exact h.done _ hle
    · obtain rfl := Option.some.inj hs
      exact (h.dropKey _ _).done _ hle
  | opening message aad key =>
    simp only [hstage] at hs
    split at hs <;> obtain rfl := Option.some.inj hs <;> exact h.done _ hle

theorem Session.Within.failed {call : Call} (hcall : call.Within maxSkip) {s' : Session}
    (hs : s.failed call = some s') : s'.Within maxSkip := by
  unfold Session.failed at hs
  split at hs
  · obtain rfl := Option.some.inj hs
    exact h.done _ hcall.le
  · simp at hs
  · obtain rfl := Option.some.inj hs
    exact h.done _ hcall.le

end

theorem Session.within_start {maxSkip : ℕ} {state : RatchetState} (h : state.skipped = ∅)
    (hmax : state.maxSkip = maxSkip) (keys : List KdfOutput) :
    (Session.start state keys).Within maxSkip :=
  ⟨RatchetState.bounded_of_empty h, hmax,
    fun _ hcall => absurd hcall List.not_mem_nil, fun _ hr => absurd hr List.not_mem_nil⟩

theorem within_of_reachable {secret : Bytes} {maxSkip : Option ℕ} {s : Session}
    (hs : (session P secret maxSkip).Reachable s) :
    s.Within (maxSkip.getD defaultMaxSkip) := by
  refine hs.invariant (I := Session.Within (maxSkip.getD defaultMaxSkip)) ?_ ?_
  · rintro s (⟨fresh, remote, _, state, -, -, halice, rfl⟩ | ⟨selfDh, -, rfl⟩)
    · obtain ⟨dhOut, -, rfl⟩ := Option.map_eq_some_iff.1 halice
      exact Session.within_start (by rfl) (by rfl) _
    · exact Session.within_start (by rfl) (by rfl) _
  · intro s e s' _ h hstep
    cases e with
    | encrypt plaintext associatedData =>
      obtain rfl := Option.some.inj hstep
      exact h.encrypt plaintext associatedData
    | decrypt message associatedData =>
      obtain rfl := Option.some.inj hstep
      exact h.decrypt message associatedData
    | resume i fresh =>
      obtain ⟨call, hcall, hstep⟩ := Option.bind_eq_some_iff.1 hstep
      obtain ⟨h, hcall⟩ := h.takeOff hcall
      exact h.goOn hcall hstep
    | fail i =>
      obtain ⟨call, hcall, hstep⟩ := Option.bind_eq_some_iff.1 hstep
      obtain ⟨h, hcall⟩ := h.takeOff hcall
      exact h.failed hcall hstep

/-- After any calls on a ratchet state, with whatever messages, in whatever order they went
    on, and whether or not they threw: no bucket is empty or holds more than `maxSkip` keys,
    the store holds at most `globalSkipCap` keys, and no call derived more than
    `2 * maxSkip + 1` chain keys. -/
theorem bounded_of_reachable {secret : Bytes} {maxSkip : Option ℕ} {s : Session}
    (hs : (session P secret maxSkip).Reachable s) :
    (∀ b bucket, s.ratchet.skipped.get? b = some bucket →
        bucket.size ≠ 0 ∧ bucket.size ≤ maxSkip.getD defaultMaxSkip) ∧
      totalSkipped s.ratchet ≤ globalSkipCap ∧
      (∀ call ∈ s.calls, call.derived ≤ 2 * maxSkip.getD defaultMaxSkip + 1) ∧
      ∀ r ∈ s.returned, r.derived ≤ 2 * maxSkip.getD defaultMaxSkip + 1 := by
  have h := within_of_reachable hs
  refine ⟨fun b bucket hb => ⟨h.bounded.nonempty b bucket hb, ?_⟩, h.bounded.total,
    fun call hcall => (h.calls call hcall).le, h.returned⟩
  rw [← h.limit]
  exact h.bounded.bucket b bucket hb

/-! ### A store that is full -/

/-- A message of Bob's second chain, far ahead: its receiver turns to the chain, and caches
    keys up to its limit. -/
def aheadEvents : List SessionEvent :=
  [.decrypt ⟨⟨[9], 0, 7⟩, []⟩ [], .resume 0 (samplePair 3)]

def aliceStart : Session :=
  .start ((initRatchetAsAlice samplePrimitives (samplePair 2) [7] [1] (some 2)).get rfl)
    (rootKdfKeys [7] [3])

theorem aliceStart_init : (session samplePrimitives [7] (some 2)).init aliceStart :=
  .inl ⟨samplePair 2, [1], [3], _, rfl, rfl, rfl, rfl⟩

theorem bounded_of_reachable_ahead : ∃ s,
    (session samplePrimitives [7] (some 2)).run aliceStart aheadEvents = some s ∧
      totalSkipped s.ratchet ≤ globalSkipCap ∧ ∀ r ∈ s.returned, r.derived ≤ 5 := by
  have hsome : ((session samplePrimitives [7] (some 2)).run aliceStart aheadEvents).isSome := by
    decide +kernel
  obtain ⟨s, hrun, hs⟩ := Machine.exists_reachable hsome aliceStart_init
  obtain ⟨-, htotal, -, hreturned⟩ := bounded_of_reachable hs
  exact ⟨s, hrun, htotal, hreturned⟩

end OneToThree.Ratchet
