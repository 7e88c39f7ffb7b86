import OneToThree.Ratchet.DoubleRatchet

/-!
# The store of skipped keys

What `cacheSkipped` and `tryDecryptSkipped` do to the store, seen as a partial
function of bucket and counter (`storedKey`).

`cacheSkipped` either throws one of the two limit errors, or advances the receive
chain to the wanted counter and stores, in the bucket of the chain, exactly the
keys it passed (`cacheSkipped_cases`, `Cached`). A limit error is thrown only if
the bucket would exceed `maxSkip` or the store `globalSkipCap`
(`cacheSkipped_error`).
-/

namespace OneToThree.Ratchet

variable {P : Primitives}

/-! ## Chains -/

@[simp] theorem chainAt_zero (ck : Bytes) : chainAt P ck 0 = ck := rfl

/-! ## The store -/

/-- The key stored at a counter in a bucket. -/
def storedKey (skipped : InsMap String SkippedKeyBucket) (bucketKey : String) (counter : ℕ) :
    Option Bytes :=
  (skipped.get? bucketKey).bind fun bucket => bucket.get? counter

theorem skippedKey_eq (state : RatchetState) (dhPub : Bytes) (counter : ℕ) :
    state.skippedKey dhPub counter = storedKey state.skipped (bytesToB64 dhPub) counter := rfl

theorem bytesToB64_inj {a b : Bytes} : bytesToB64 a = bytesToB64 b ↔ a = b :=
  Base64.encodeString_injective.eq_iff

theorem storedKey_set (skipped : InsMap String SkippedKeyBucket) (b b' : String) (c c' : ℕ)
    (mk : Bytes) :
    storedKey (skipped.set b (((skipped.get? b).getD ∅).set c mk)) b' c' =
      if b' = b ∧ c' = c then some mk else storedKey skipped b' c' := by
  by_cases hb : b' = b
  · subst hb
    by_cases hc : c' = c
    · simp [storedKey, hc]
    · cases h : skipped.get? b' <;> simp [storedKey, h, hc, InsMap.get?_set]
  · simp [storedKey, hb, InsMap.get?_set]

theorem storedKey_dropSkipped (state : RatchetState) (dhPub : Bytes) (counter : ℕ) (b : String)
    (c : ℕ) :
    storedKey (state.dropSkipped dhPub counter).skipped b c =
      if b = bytesToB64 dhPub ∧ c = counter then none else storedKey state.skipped b c := by
  unfold RatchetState.dropSkipped
  cases h : state.skipped.get? (bytesToB64 dhPub) with
  | none =>
    by_cases hb : b = bytesToB64 dhPub
    · simp [hb, storedKey, h]
    · simp [hb]
  | some bucket =>
    by_cases hb : b = bytesToB64 dhPub
    · subst hb
      by_cases hsize : (bucket.delete counter).size = 0
      · -- The bucket held no other key.
        have hnone : ∀ c, (bucket.delete counter).get? c = none := by
          intro c
          have : (bucket.delete counter).entries = [] := List.length_eq_zero_iff.1 hsize
          simp [InsMap.get?, this, InsMap.find]
        have := hnone c
        rw [InsMap.get?_delete] at this
        simp only [hsize, ↓reduceIte, storedKey, InsMap.get?_delete_self, Option.bind_none, h,
          Option.bind_some, true_and]
        split_ifs with hc
        · rfl
        · rw [if_neg hc] at this
          exact this.symm
      · simp [hsize, storedKey, h, InsMap.get?_delete]
    · by_cases hsize : (bucket.delete counter).size = 0 <;>
        simp [hsize, hb, storedKey, InsMap.get?_delete, InsMap.get?_set]

/-- Dropping a skipped key only changes the store. -/
theorem dropSkipped_eq (state : RatchetState) (dhPub : Bytes) (counter : ℕ) :
    state.dropSkipped dhPub counter =
      { state with skipped := (state.dropSkipped dhPub counter).skipped } := by
  unfold RatchetState.dropSkipped
  split <;> rfl

/-! ## Caching -/

/-- The errors thrown for want of room in the store. -/
def RatchetError.IsLimit (e : RatchetError) : Prop := e = .skipLimit ∨ e = .globalSkipLimit

instance (e : RatchetError) : Decidable e.IsLimit := inferInstanceAs (Decidable (_ ∨ _))

/-- The state `state'` after caching, from `state`, the keys of the chain starting
    at `ck` up to the counter `upTo`, in the bucket of `remote`. -/
structure Cached (P : Primitives) (ck remote : Bytes) (upTo : ℕ) (state state' : RatchetState) :
    Prop where
  eq : state' = { state with
    recvChain := some (chainAt P ck (max state.recvCounter upTo))
    recvCounter := max state.recvCounter upTo
    skipped := state'.skipped }
  stored : ∀ b c, storedKey state'.skipped b c =
    if b = bytesToB64 remote ∧ state.recvCounter ≤ c ∧ c < upTo then some (messageKeyAt P ck c)
    else storedKey state.skipped b c

theorem cacheLoop_cases {ck remote : Bytes} (n total : ℕ) (state : RatchetState) :
    (∃ e state', cacheLoop P (bytesToB64 remote) n (chainAt P ck state.recvCounter) total state =
        (.error e, state') ∧ e.IsLimit) ∨
      ∃ state', cacheLoop P (bytesToB64 remote) n (chainAt P ck state.recvCounter) total state =
          (.ok (), state') ∧
        (state.recvChain = some (chainAt P ck state.recvCounter) →
          Cached P ck remote (state.recvCounter + n) state state') := by
  induction n generalizing total state with
  | zero =>
    refine .inr ⟨state, rfl, fun h => ⟨?_, fun b c => ?_⟩⟩
    · rw [Nat.add_zero, Nat.max_self, ← h]
    · rw [if_neg (by omega)]
  | succ n ih =>
    unfold cacheLoop
    dsimp only
    by_cases h₁ : state.maxSkip ≤ ((state.skipped.get? (bytesToB64 remote)).getD ∅).size
    · exact .inl ⟨_, _, by rw [if_pos h₁], .inl rfl⟩
    rw [if_neg h₁]
    by_cases h₂ : globalSkipCap ≤ total
    · exact .inl ⟨_, _, by rw [if_pos h₂], .inr rfl⟩
    rw [if_neg h₂]
    -- One key is derived and stored; the rest is the loop from the next counter.
    have hnext : (kdfMessageKey P (chainAt P ck state.recvCounter)).nextChainKey =
        chainAt P ck (state.recvCounter + 1) := rfl
    rw [hnext]
    refine (ih (total + 1) { state with
      recvChain := some (chainAt P ck (state.recvCounter + 1))
      skipped := state.skipped.set (bytesToB64 remote)
        (((state.skipped.get? (bytesToB64 remote)).getD ∅).set state.recvCounter
          (messageKeyAt P ck state.recvCounter))
      recvCounter := state.recvCounter + 1 }).imp id ?_
    rintro ⟨state', h, hc⟩
    refine ⟨state', h, fun _ => ?_⟩
    obtain ⟨heq, hstored⟩ := hc rfl
    dsimp only at heq hstored
    refine ⟨?_, fun b c => ?_⟩
    · have hmax : max (state.recvCounter + 1) (state.recvCounter + 1 + n) =
          max state.recvCounter (state.recvCounter + (n + 1)) := by omega
      rw [heq, hmax]
    · rw [hstored, storedKey_set]
      by_cases hb : b = bytesToB64 remote
      · by_cases hc : c = state.recvCounter
        · simp [hb, hc, messageKeyAt]
        · have : (state.recvCounter + 1 ≤ c ∧ c < state.recvCounter + 1 + n) ↔
              (state.recvCounter ≤ c ∧ c < state.recvCounter + (n + 1)) := by omega
          simp only [hb, hc, true_and, and_false, ↓reduceIte, this]
      · simp [hb]

theorem cacheSkipped_cases {ck : Bytes} {state : RatchetState} (remote : Bytes) (upTo : ℕ)
    (h : state.recvChain = some (chainAt P ck state.recvCounter)) :
    (∃ e state', cacheSkipped P state remote upTo = (.error e, state') ∧ e.IsLimit) ∨
      ∃ state', cacheSkipped P state remote upTo = (.ok (), state') ∧
        Cached P ck remote upTo state state' := by
  rw [cacheSkipped, h]
  dsimp only
  by_cases hle : upTo ≤ state.recvCounter
  · rw [if_pos hle]
    refine .inr ⟨state, rfl, ?_, fun b c => ?_⟩
    · rw [Nat.max_eq_left hle, ← h]
    · rw [if_neg (by omega)]
  · rw [if_neg hle]
    refine (cacheLoop_cases _ _ state).imp id ?_
    rintro ⟨state', hs, hc⟩
    refine ⟨state', hs, ?_⟩
    have := hc h
    rwa [Nat.add_sub_cancel' (by omega)] at this

/-- Before the first DH ratchet step there is nothing to cache. -/
theorem cacheSkipped_none {state : RatchetState} (remote : Bytes) (upTo : ℕ)
    (h : state.recvChain = none) : cacheSkipped P state remote upTo = (.ok (), state) := by
  rw [cacheSkipped, h]

/-- Caching, thrown or not, only changes the receive chain, its counter and the store. -/
theorem cacheLoop_frame (bucketKey : String) (n : ℕ) (chain : Bytes) (total : ℕ)
    (state : RatchetState) :
    (cacheLoop P bucketKey n chain total state).2 = { state with
      recvChain := (cacheLoop P bucketKey n chain total state).2.recvChain
      recvCounter := (cacheLoop P bucketKey n chain total state).2.recvCounter
      skipped := (cacheLoop P bucketKey n chain total state).2.skipped } := by
  induction n generalizing chain total state with
  | zero => rfl
  | succ n ih =>
    unfold cacheLoop
    dsimp only
    split_ifs
    · rfl
    · rfl
    · rw [ih]

theorem cacheSkipped_frame (state : RatchetState) (remote : Bytes) (upTo : ℕ) :
    (cacheSkipped P state remote upTo).2 = { state with
      recvChain := (cacheSkipped P state remote upTo).2.recvChain
      recvCounter := (cacheSkipped P state remote upTo).2.recvCounter
      skipped := (cacheSkipped P state remote upTo).2.skipped } := by
  unfold cacheSkipped
  split
  · rfl
  · split_ifs
    · rfl
    · exact cacheLoop_frame ..

/-! ## The limits -/

/-- The number of keys stored in the bucket of a remote key. -/
def RatchetState.bucketSize (state : RatchetState) (remote : Bytes) : ℕ :=
  ((state.skipped.get? (bytesToB64 remote)).getD ∅).size

/-- Writing to a map adds at most one entry. -/
theorem size_set_le {K V : Type} [DecidableEq K] (m : InsMap K V) (k : K) (v : V) :
    (m.set k v).size ≤ m.size + 1 := by
  by_cases h : m.has k = true
  · rw [InsMap.size_set_of_has v h]; omega
  · exact Nat.le_of_eq (InsMap.size_set_of_not_has v (by simpa using h))

/-- Storing one more key adds at most one to the total. -/
theorem sum_store_le (skipped : InsMap String SkippedKeyBucket) (b : String) (c : ℕ) (mk : Bytes) :
    (skipped.set b (((skipped.get? b).getD ∅).set c mk)).total InsMap.size ≤
      skipped.total InsMap.size + 1 := by
  have hsum := InsMap.total_set InsMap.size skipped b (((skipped.get? b).getD ∅).set c mk)
  have hle := size_set_le ((skipped.get? b).getD ∅) c mk
  cases h : skipped.get? b with
  | none => simp only [h, Option.elim_none, Option.getD_none, InsMap.size_empty] at hsum hle ⊢; omega
  | some bucket => simp only [h, Option.elim_some, Option.getD_some] at hsum hle ⊢; omega

/-- The loop throws only if the bucket would exceed `maxSkip`, or the running total
    `globalSkipCap`. -/
theorem cacheLoop_error {bucketKey : String} {n : ℕ} {chain : Bytes} {total : ℕ}
    {state state' : RatchetState} {e : RatchetError}
    (h : cacheLoop P bucketKey n chain total state = (.error e, state')) :
    state.maxSkip < ((state.skipped.get? bucketKey).getD ∅).size + n ∨
      globalSkipCap < total + n := by
  induction n generalizing chain total state with
  | zero => simp [cacheLoop] at h
  | succ n ih =>
    unfold cacheLoop at h
    dsimp only at h
    split_ifs at h with h₁ h₂
    · exact .inl (by omega)
    · exact .inr (by omega)
    · have hle := size_set_le ((state.skipped.get? bucketKey).getD ∅) state.recvCounter
        (kdfMessageKey P chain).messageKey
      have := ih h
      rw [InsMap.get?_set_self, Option.getD_some] at this
      dsimp only at this
      omega

theorem cacheSkipped_error {state state' : RatchetState} {remote : Bytes} {upTo : ℕ}
    {e : RatchetError} (h : cacheSkipped P state remote upTo = (.error e, state')) :
    state.recvChain ≠ none ∧
      (state.maxSkip < state.bucketSize remote + (upTo - state.recvCounter) ∨
        globalSkipCap < totalSkipped state + (upTo - state.recvCounter)) := by
  unfold cacheSkipped at h
  split at h
  · simp at h
  · rename_i hchain
    split_ifs at h
    · simp at h
    · exact ⟨by simp [hchain], cacheLoop_error h⟩

/-- What caching `n` keys in a bucket keeps: the other buckets and `maxSkip`, and the
    total within `n` more. -/
structure Grown (bucketKey : String) (n : ℕ) (state state' : RatchetState) : Prop where
  maxSkip : state'.maxSkip = state.maxSkip
  total : totalSkipped state' ≤ totalSkipped state + n
  get? : ∀ b ≠ bucketKey, state'.skipped.get? b = state.skipped.get? b

theorem cacheLoop_grown {bucketKey : String} {n : ℕ} {chain : Bytes} {total : ℕ}
    {state state' : RatchetState}
    (h : cacheLoop P bucketKey n chain total state = (.ok (), state')) :
    Grown bucketKey n state state' := by
  induction n generalizing chain total state with
  | zero =>
    obtain rfl : state = state' := by simpa [cacheLoop] using h
    exact ⟨rfl, Nat.le_refl _, fun _ _ => rfl⟩
  | succ n ih =>
    unfold cacheLoop at h
    dsimp only at h
    split_ifs at h
    · simp at h
    · simp at h
    · obtain ⟨hmax, htotal, hget⟩ := ih h
      refine ⟨hmax, ?_, fun b hb => ?_⟩
      · have hstore := sum_store_le state.skipped bucketKey state.recvCounter
          (kdfMessageKey P chain).messageKey
        simp only [totalSkipped] at htotal ⊢
        omega
      · rw [hget b hb, InsMap.get?_set_ne _ _ hb]

theorem cacheSkipped_grown {state state' : RatchetState} {remote : Bytes} {upTo : ℕ}
    (h : cacheSkipped P state remote upTo = (.ok (), state')) :
    Grown (bytesToB64 remote) (if state.recvChain = none then 0 else upTo - state.recvCounter)
      state state' := by
  unfold cacheSkipped at h
  split at h
  · obtain rfl : state = state' := by simpa using h
    exact ⟨rfl, Nat.le_add_right _ _, fun _ _ => rfl⟩
  · rename_i hchain
    split_ifs at h
    · obtain rfl : state = state' := by simpa using h
      exact ⟨rfl, Nat.le_add_right _ _, fun _ _ => rfl⟩
    · rw [hchain, if_neg (by simp)]
      exact cacheLoop_grown h

/-- How many keys decrypting a header caches from the current receive chain, before
    turning to another one. -/
def RatchetState.leftOver (state : RatchetState) (header : RatchetHeader) : ℕ :=
  if state.dhRemote = some header.dhPub ∨ state.recvChain = none then 0
  else header.previousChainLength - state.recvCounter

/-- How many keys decrypting a header caches from the chain of the header. -/
def RatchetState.ahead (state : RatchetState) (header : RatchetHeader) : ℕ :=
  if state.dhRemote = some header.dhPub then header.counter - state.recvCounter
  else header.counter

/-- Decrypting a message with this header would exceed neither `maxSkip` keys in a
    bucket nor `globalSkipCap` keys in total. -/
def RatchetState.WithinLimits (state : RatchetState) (header : RatchetHeader) : Prop :=
  (state.skippedKey header.dhPub header.counter).isSome ∨
    ((∀ remote ∈ state.dhRemote, state.bucketSize remote + state.leftOver header ≤ state.maxSkip) ∧
      state.bucketSize header.dhPub + state.ahead header ≤ state.maxSkip ∧
      totalSkipped state + state.leftOver header + state.ahead header ≤ globalSkipCap)

instance (state : RatchetState) (header : RatchetHeader) : Decidable (state.WithinLimits header) :=
  inferInstanceAs (Decidable (_ ∨ _))

/-- What every outcome of the DH ratchet step leaves alone, and that it restarts the
    receive counter. -/
theorem dhRatchetStep_frame (fresh : KeyPair) (state : RatchetState) (newRemote : Bytes) :
    (dhRatchetStep P fresh state newRemote).2.skipped = state.skipped ∧
      (dhRatchetStep P fresh state newRemote).2.maxSkip = state.maxSkip ∧
      (dhRatchetStep P fresh state newRemote).2.recvCounter = 0 := by
  unfold dhRatchetStep
  dsimp only
  split
  · exact ⟨rfl, rfl, rfl⟩
  · split <;> exact ⟨rfl, rfl, rfl⟩

/-- The DH ratchet step throws only for a key that X25519 does not accept. -/
theorem dhRatchetStep_error {fresh : KeyPair} {state state' : RatchetState} {newRemote : Bytes}
    {e : RatchetError} (h : dhRatchetStep P fresh state newRemote = (.error e, state')) :
    e = .badPublicKey := by
  unfold dhRatchetStep at h
  dsimp only at h
  split at h
  · simp only [Prod.mk.injEq, Except.error.injEq] at h
    exact h.1.symm
  · split at h
    · simp only [Prod.mk.injEq, Except.error.injEq] at h
      exact h.1.symm
    · simp at h

/-- Within the limits, turning to the chain of a header throws no limit error, and
    leaves room for the keys ahead in that chain. -/
theorem turnTo_withinLimits {fresh : KeyPair} {state state' : RatchetState}
    {header : RatchetHeader} {res : Except RatchetError Unit}
    (hremote : ∀ remote ∈ state.dhRemote,
      state.bucketSize remote + state.leftOver header ≤ state.maxSkip)
    (htotal : totalSkipped state + state.leftOver header + state.ahead header ≤ globalSkipCap)
    (h : turnTo P fresh state header = (res, state')) :
    (∀ e, res = .error e → ¬ e.IsLimit) ∧
      state'.maxSkip = state.maxSkip ∧
      state'.bucketSize header.dhPub = state.bucketSize header.dhPub ∧
      totalSkipped state' ≤ totalSkipped state + state.leftOver header ∧
      header.counter - state'.recvCounter = state.ahead header := by
  unfold turnTo at h
  by_cases hpub : state.dhRemote = some header.dhPub
  · rw [if_pos hpub, Prod.mk.injEq] at h
    obtain ⟨rfl, rfl⟩ := h
    exact ⟨by simp, rfl, rfl, Nat.le_add_right _ _, by rw [RatchetState.ahead, if_pos hpub]⟩
  rw [if_neg hpub] at h
  -- What the step makes of a state with the caching of the left-over keys behind it.
  have hstep : ∀ state₁ : RatchetState, dhRatchetStep P fresh state₁ header.dhPub = (res, state') →
      state₁.maxSkip = state.maxSkip →
      state₁.bucketSize header.dhPub = state.bucketSize header.dhPub →
      totalSkipped state₁ ≤ totalSkipped state + state.leftOver header →
      (∀ e, res = .error e → ¬ e.IsLimit) ∧
        state'.maxSkip = state.maxSkip ∧
        state'.bucketSize header.dhPub = state.bucketSize header.dhPub ∧
        totalSkipped state' ≤ totalSkipped state + state.leftOver header ∧
        header.counter - state'.recvCounter = state.ahead header := by
    intro state₁ hs hmax hsize hgrown
    obtain ⟨hskipped, hmax', hzero⟩ := dhRatchetStep_frame (P := P) fresh state₁ header.dhPub
    rw [hs] at hskipped hmax' hzero
    dsimp only at hskipped hmax' hzero
    refine ⟨fun e he => ?_, hmax'.trans hmax, ?_, ?_, ?_⟩
    · rw [he] at hs
      rw [dhRatchetStep_error hs]
      decide
    · rwa [RatchetState.bucketSize, hskipped]
    · rwa [totalSkipped, hskipped]
    · rw [hzero, Nat.sub_zero, RatchetState.ahead, if_neg hpub]
  cases hdh : state.dhRemote with
  | none =>
    rw [hdh] at h
    exact hstep state h rfl rfl (Nat.le_add_right _ _)
  | some remote =>
    have hne : header.dhPub ≠ remote := fun heq => hpub (heq ▸ hdh)
    rw [hdh] at h
    dsimp only at h
    cases hcache : cacheSkipped P state remote header.previousChainLength with
    | mk res₁ state₁ =>
      rw [hcache] at h
      cases res₁ with
      | error e =>
        -- The left-over keys have room.
        obtain ⟨hchain, hlt⟩ := cacheSkipped_error hcache
        have hleft : state.leftOver header = header.previousChainLength - state.recvCounter :=
          if_neg (by simp [hpub, hchain])
        have := hremote remote hdh
        omega
      | ok =>
        obtain ⟨hmax, hgrown, hget⟩ := cacheSkipped_grown hcache
        refine hstep state₁ h hmax ?_ ?_
        · rw [RatchetState.bucketSize, hget _ fun h => hne (bytesToB64_inj.1 h),
            RatchetState.bucketSize]
        · refine Nat.le_trans hgrown (Nat.add_le_add_left ?_ _)
          by_cases hchain : state.recvChain = none <;> simp [RatchetState.leftOver, hpub, hchain]

/-- Within the limits, a delivery throws no limit error. -/
theorem not_isLimit_of_withinLimits {fresh : KeyPair} {state state' : RatchetState}
    {message : RatchetMessage} {ad : Bytes} {e : RatchetError}
    (hw : state.WithinLimits message.header)
    (h : decryptRatchet P fresh state message ad = (.error e, state')) : ¬ e.IsLimit := by
  have hop : ¬ RatchetError.operationError.IsLimit := by decide
  unfold decryptRatchet tryDecryptSkipped at h
  cases hkey : state.skippedKey message.header.dhPub message.header.counter with
  | some mk =>
    simp only [hkey] at h
    cases hopen : openWith P mk message.ciphertext (ad ++ headerAad message.header) with
    | none =>
      simp only [hopen, Prod.mk.injEq, Except.error.injEq] at h
      exact h.1 ▸ hop
    | some pt => simp [hopen] at h
  | none =>
    obtain ⟨hremote, hbucket, htotal⟩ := hw.resolve_left (by simp [hkey])
    simp only [hkey, takeMessageKey] at h
    cases hturn : turnTo P fresh state message.header with
    | mk res₁ state₁ =>
    obtain ⟨hlimit, hmax, hsize, hgrown, hahead⟩ := turnTo_withinLimits hremote htotal hturn
    cases res₁ with
    | error e' =>
      simp only [hturn, Prod.mk.injEq, Except.error.injEq] at h
      exact h.1 ▸ hlimit e' rfl
    | ok =>
    simp only [hturn] at h
    cases hcache : cacheSkipped P state₁ message.header.dhPub message.header.counter with
    | mk res state₂ =>
      cases res with
      | error e' =>
        have hlt := (cacheSkipped_error hcache).2
        rw [hahead, hmax, hsize] at hlt
        omega
      | ok =>
        simp only [hcache] at h
        cases hchain : state₂.recvChain with
        | none =>
          simp only [hchain, Prod.mk.injEq, Except.error.injEq] at h
          exact h.1 ▸ by decide
        | some chain =>
          simp only [hchain] at h
          split at h
          · simp only [Prod.mk.injEq, Except.error.injEq] at h
            exact h.1 ▸ hop
          · simp at h

end OneToThree.Ratchet
