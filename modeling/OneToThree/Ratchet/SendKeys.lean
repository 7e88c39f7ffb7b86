import OneToThree.Ratchet.Delivery
import OneToThree.Ratchet.Session

/-!
# The keys that messages are sent with

The calls of `encryptRatchet` on one ratchet state take different message keys, whatever
arrives meanwhile (`messageKeys_nodup`): a root key is so many steps of the root chain from
the shared secret (`Rooted`), a chain key so many messages into the chain of such a root key
(`Chained`), and a session only moves forward in that order (`SendingAt`). What this rests on is
that the derived keys do not collide (`NoCollision`).

Their headers are different too (`HeadersBelow`), with one exception: `dhRatchetStep` resets the
send counter before it computes the agreement with the new remote key, and where X25519 refuses
that key, the throw leaves the counter at zero on a chain that has sent. So the headers repeat
(`headers_repeat`); they do not along a run in which no such key is taken up while the
send counter is not zero (`sent_nodup`).
-/

namespace OneToThree.Ratchet

variable {P : Primitives} {secret : Bytes}

/-! ## Where a key comes from -/

variable (P secret) in
/-- No two of these derived keys are equal, and none is the shared secret. -/
structure NoCollision (keys : List KdfOutput) : Prop where
  secret_ne : ∀ x ∈ keys, x.value P ≠ secret
  value_inj : ∀ x ∈ keys, ∀ y ∈ keys, x.value P = y.value P → x = y

instance (keys : List KdfOutput) : Decidable (NoCollision P secret keys) :=
  decidable_of_iff ((∀ x ∈ keys, x.value P ≠ secret) ∧
      ∀ x ∈ keys, ∀ y ∈ keys, x.value P = y.value P → x = y)
    ⟨fun h => ⟨h.1, h.2⟩, fun h => ⟨h.1, h.2⟩⟩

variable (P secret) in
/-- The root key is `k` derivations of `keys` away from the shared secret. -/
inductive Rooted (keys : List KdfOutput) : ℕ → Bytes → Prop
  | secret : Rooted keys 0 secret
  | step {k : ℕ} {root dhOutput : Bytes} : Rooted keys k root →
      .rootKey root dhOutput ∈ keys → Rooted keys (k + 1) (rootKdf P root dhOutput).rootKey

variable (P secret) in
/-- The chain key is `n` messages into the chain of a root key that is `m` derivations away
    from the shared secret. -/
inductive Chained (keys : List KdfOutput) : ℕ → ℕ → Bytes → Prop
  | start {m : ℕ} {root dhOutput : Bytes} : Rooted P secret keys m root →
      .chainKey root dhOutput ∈ keys → Chained keys m 0 (rootKdf P root dhOutput).chainKey
  | step {m n : ℕ} {chain : Bytes} : Chained keys m n chain →
      .nextChainKey chain ∈ keys → Chained keys m (n + 1) (kdfMessageKey P chain).nextChainKey

theorem NoCollision.mono {keys keys' : List KdfOutput} (h : NoCollision P secret keys')
    (hsub : ∀ x ∈ keys, x ∈ keys') : NoCollision P secret keys where
  secret_ne x hx := h.secret_ne x (hsub x hx)
  value_inj x hx y hy := h.value_inj x (hsub x hx) y (hsub y hy)

theorem Rooted.mono {keys keys' : List KdfOutput} (hsub : ∀ x ∈ keys, x ∈ keys') {k : ℕ}
    {root : Bytes} (h : Rooted P secret keys k root) : Rooted P secret keys' k root := by
  induction h with
  | secret => exact .secret
  | step _ hmem ih => exact .step ih (hsub _ hmem)

theorem Chained.mono {keys keys' : List KdfOutput} (hsub : ∀ x ∈ keys, x ∈ keys') {m n : ℕ}
    {chain : Bytes} (h : Chained P secret keys m n chain) : Chained P secret keys' m n chain := by
  induction h with
  | start hroot hmem => exact .start (hroot.mono hsub) (hsub _ hmem)
  | step _ hmem ih => exact .step ih (hsub _ hmem)

section
variable {keys : List KdfOutput} (hkeys : NoCollision P secret keys)
include hkeys

/-- A root key is at one distance from the shared secret. -/
theorem Rooted.unique {k k' : ℕ} {root : Bytes} (h : Rooted P secret keys k root)
    (h' : Rooted P secret keys k' root) : k = k' := by
  induction h generalizing k' with
  | secret =>
    generalize hroot : secret = root at h'
    cases h' with
    | secret => rfl
    | step _ hmem => exact absurd hroot.symm (hkeys.secret_ne _ hmem)
  | @step k root dhOutput _ hmem ih =>
    generalize hroot : (rootKdf P root dhOutput).rootKey = root' at h'
    cases h' with
    | secret => exact absurd hroot (hkeys.secret_ne _ hmem)
    | step h' hmem' =>
      obtain ⟨rfl, -⟩ := KdfOutput.rootKey.inj (hkeys.value_inj _ hmem _ hmem' hroot)
      rw [ih h']

/-- A chain key is at one place of one chain. -/
theorem Chained.unique {m n m' n' : ℕ} {chain : Bytes} (h : Chained P secret keys m n chain)
    (h' : Chained P secret keys m' n' chain) : m = m' ∧ n = n' := by
  induction h generalizing n' with
  | @start root dhOutput hroot hmem =>
    generalize hchain : (rootKdf P root dhOutput).chainKey = chain at h'
    cases h' with
    | start hroot' hmem' =>
      obtain ⟨rfl, -⟩ := KdfOutput.chainKey.inj (hkeys.value_inj _ hmem _ hmem' hchain)
      exact ⟨hroot.unique hkeys hroot', rfl⟩
    | step _ hmem' => exact absurd (hkeys.value_inj _ hmem _ hmem' hchain) (by simp)
  | @step n chain _ hmem ih =>
    generalize hchain : (kdfMessageKey P chain).nextChainKey = chain' at h'
    cases h' with
    | start _ hmem' => exact absurd (hkeys.value_inj _ hmem _ hmem' hchain) (by simp)
    | step h' hmem' =>
      obtain rfl := KdfOutput.nextChainKey.inj (hkeys.value_inj _ hmem _ hmem' hchain)
      obtain ⟨rfl, rfl⟩ := ih h'
      exact ⟨rfl, rfl⟩

end

/-! ## What taking a key does to the sending side -/

variable (P) in
/-- X25519 refuses the key that a message makes its receiver turn to, once what is left of
    the current receive chain is cached. -/
def RatchetState.refuses (state : RatchetState) (header : RatchetHeader) : Bool :=
  decide (state.dhRemote ≠ some header.dhPub) &&
    (state.dhRemote.all fun remote =>
      (cacheSkipped P state remote header.previousChainLength).1.isOk) &&
    (dh P state.dhSelf.privateKey header.dhPub).isNone

variable (P) in
/-- What becomes of the sending side when a message is taken up, with the keys that are
    derived from the root key. -/
inductive Turned (fresh : KeyPair) (header : RatchetHeader) (state state' : RatchetState) :
    List KdfOutput → Prop
  /-- Nothing, where the message is of the current chain, or what is left of the chain
      exceeds the limits. -/
  | kept : state'.dhSelf = state.dhSelf → state'.rootKey = state.rootKey →
      state'.sendChain = state.sendChain → state'.sendCounter = state.sendCounter →
      Turned fresh header state state' []
  /-- The key is refused: the counter is reset, and the chain is not. -/
  | refused : state.refuses P header = true → state'.dhSelf = state.dhSelf →
      state'.rootKey = state.rootKey → state'.sendChain = state.sendChain →
      state'.sendCounter = 0 → Turned fresh header state state' []
  /-- The key is refused with the new key pair. -/
  | halfway (dhRecv : Bytes) : state'.dhSelf = fresh →
      state'.rootKey = (rootKdf P state.rootKey dhRecv).rootKey →
      state'.sendChain = state.sendChain → state'.sendCounter = 0 →
      Turned fresh header state state' (rootKdfKeys state.rootKey dhRecv)
  /-- A new chain. -/
  | turned (dhRecv dhSend : Bytes) : state'.dhSelf = fresh →
      state'.rootKey =
        (rootKdf P (rootKdf P state.rootKey dhRecv).rootKey dhSend).rootKey →
      state'.sendChain =
        some (rootKdf P (rootKdf P state.rootKey dhRecv).rootKey dhSend).chainKey →
      state'.sendCounter = 0 →
      Turned fresh header state state' (rootKdfKeys state.rootKey dhRecv ++
        rootKdfKeys (rootKdf P state.rootKey dhRecv).rootKey dhSend)

/-- The sending side of two states is the same. -/
structure SameSending (state state' : RatchetState) : Prop where
  dhSelf : state'.dhSelf = state.dhSelf
  rootKey : state'.rootKey = state.rootKey
  sendChain : state'.sendChain = state.sendChain
  sendCounter : state'.sendCounter = state.sendCounter

theorem cacheSkipped_sameSending (state : RatchetState) (remote : Bytes) (upTo : ℕ) :
    SameSending state (cacheSkipped P state remote upTo).2 := by
  have h := cacheSkipped_frame (P := P) state remote upTo
  exact ⟨by rw [h], by rw [h], by rw [h], by rw [h]⟩

theorem Turned.congr {fresh : KeyPair} {header : RatchetHeader}
    {state state₁ state₂ : RatchetState} {keys : List KdfOutput}
    (h : Turned P fresh header state state₁ keys) (hsame : SameSending state₁ state₂) :
    Turned P fresh header state state₂ keys := by
  obtain ⟨hself, hroot, hchain, hcounter⟩ := hsame
  cases h with
  | kept h₁ h₂ h₃ h₄ =>
    exact .kept (hself.trans h₁) (hroot.trans h₂) (hchain.trans h₃) (hcounter.trans h₄)
  | refused h₀ h₁ h₂ h₃ h₄ =>
    exact .refused h₀ (hself.trans h₁) (hroot.trans h₂) (hchain.trans h₃) (hcounter.trans h₄)
  | halfway dhRecv h₁ h₂ h₃ h₄ =>
    exact .halfway dhRecv (hself.trans h₁) (hroot.trans h₂) (hchain.trans h₃) (hcounter.trans h₄)
  | turned dhRecv dhSend h₁ h₂ h₃ h₄ =>
    exact .turned dhRecv dhSend (hself.trans h₁) (hroot.trans h₂) (hchain.trans h₃)
      (hcounter.trans h₄)

theorem dhRatchetStep_turned (fresh : KeyPair) {state cached : RatchetState}
    (hsame : SameSending state cached) {header : RatchetHeader}
    (hrefuses : dh P state.dhSelf.privateKey header.dhPub = none →
      state.refuses P header = true) :
    Turned P fresh header state (dhRatchetStep P fresh cached header.dhPub).2
      (dhRatchetStepKeys P fresh cached header.dhPub) := by
  obtain ⟨hself, hroot, hchain, -⟩ := hsame
  unfold dhRatchetStep dhRatchetStepKeys
  dsimp only
  rw [hself]
  cases hrecv : dh P state.dhSelf.privateKey header.dhPub with
  | none => exact .refused (hrefuses hrecv) rfl hroot hchain rfl
  | some dhRecv =>
    rw [hroot]
    cases hsend : dh P fresh.privateKey header.dhPub with
    | none =>
      simp only [List.append_nil]
      exact .halfway dhRecv rfl rfl hchain rfl
    | some dhSend =>
      exact .turned dhRecv dhSend rfl rfl rfl rfl

theorem turnTo_turned (fresh : KeyPair) (state : RatchetState) (header : RatchetHeader) :
    Turned P fresh header state (turnTo P fresh state header).2
      (turnToKeys P fresh state header) := by
  unfold turnTo turnToKeys
  by_cases hpub : state.dhRemote = some header.dhPub
  · rw [if_pos hpub, if_pos hpub]
    exact .kept rfl rfl rfl rfl
  rw [if_neg hpub, if_neg hpub]
  cases hremote : state.dhRemote with
  | none =>
    refine dhRatchetStep_turned fresh ⟨rfl, rfl, rfl, rfl⟩ fun hdh => ?_
    simp [RatchetState.refuses, hremote, hdh]
  | some remote =>
    dsimp only
    have hsame := cacheSkipped_sameSending (P := P) state remote header.previousChainLength
    cases hcache : cacheSkipped P state remote header.previousChainLength with
    | mk res cached =>
      rw [hcache] at hsame
      cases res with
      | error e => exact .kept hsame.dhSelf hsame.rootKey hsame.sendChain hsame.sendCounter
      | ok =>
        refine dhRatchetStep_turned fresh hsame fun hdh => ?_
        rw [hremote, Option.some.injEq] at hpub
        simp [RatchetState.refuses, hremote, hcache, hdh, hpub, Except.isOk, Except.toBool]

theorem takeMessageKey_turned (fresh : KeyPair) (state : RatchetState) (header : RatchetHeader) :
    Turned P fresh header state (takeMessageKey P fresh state header).2
      (turnToKeys P fresh state header) := by
  have hturned := turnTo_turned (P := P) fresh state header
  unfold takeMessageKey
  cases hturn : turnTo P fresh state header with
  | mk res turned =>
    rw [hturn] at hturned
    cases res with
    | error e => exact hturned
    | ok =>
      dsimp only
      have hcached := hturned.congr (cacheSkipped_sameSending (P := P) turned header.dhPub header.counter)
      cases hcache : cacheSkipped P turned header.dhPub header.counter with
      | mk res cached =>
        rw [hcache] at hcached
        cases res with
        | error e => exact hcached
        | ok =>
          dsimp only
          split
          · exact hcached
          · exact hcached.congr ⟨rfl, rfl, rfl, rfl⟩

/-! ## Message keys -/

/-- The place `n'` of the chain `m'` is before the place `n` of the chain `m`. -/
def Before (m' n' m n : ℕ) : Prop := m' < m ∨ m' = m ∧ n' < n

variable (P secret) in
/-- The session has come to the `n`-th message of the chain that starts `m` derivations of
    the root key away from the shared secret, `k` being the distance of its root key. -/
structure SendingAt (s : Session) (k m n : ℕ) : Prop where
  le : m ≤ k
  root : Rooted P secret s.keys k s.ratchet.rootKey
  chain : ∀ chain ∈ s.ratchet.sendChain, Chained P secret s.keys m n chain
  sent : ∀ e ∈ s.sent, ∃ m' n' chain, Chained P secret s.keys m' n' chain ∧
    .messageKey chain ∈ s.keys ∧ e.messageKey = (kdfMessageKey P chain).messageKey ∧
      Before m' n' m n
  distinct : NoCollision P secret s.keys → (s.sent.map Sealed.messageKey).Nodup

variable (P secret) in
/-- The session is somewhere on its way. -/
def Sending (s : Session) : Prop := ∃ k m n, SendingAt P secret s k m n

theorem Before.trans_le {m n m₁ n₁ m₂ n₂ : ℕ} (h : Before m n m₁ n₁)
    (hle : m₁ < m₂ ∨ m₁ = m₂ ∧ n₁ ≤ n₂) : Before m n m₂ n₂ := by
  unfold Before at *
  omega

theorem SendingAt.sent_mono {s : Session} {k m n m₂ n₂ : ℕ} {keys : List KdfOutput}
    (h : SendingAt P secret s k m n) (hle : m < m₂ ∨ m = m₂ ∧ n ≤ n₂)
    (hsub : ∀ x ∈ s.keys, x ∈ keys) : ∀ e ∈ s.sent, ∃ m' n' chain,
      Chained P secret keys m' n' chain ∧ .messageKey chain ∈ keys ∧
        e.messageKey = (kdfMessageKey P chain).messageKey ∧ Before m' n' m₂ n₂ := by
  intro e he
  obtain ⟨m', n', chain, hchain, hmem, hkey, hlt⟩ := h.sent e he
  exact ⟨m', n', chain, hchain.mono hsub, hsub _ hmem, hkey, hlt.trans_le hle⟩

/-- What the sending side does not see keeps it where it is. -/
theorem Sending.congr {s s' : Session} (h : Sending P secret s)
    (hroot : s'.ratchet.rootKey = s.ratchet.rootKey)
    (hchain : s'.ratchet.sendChain = s.ratchet.sendChain) (hsent : s'.sent = s.sent)
    (hkeys : s'.keys = s.keys) : Sending P secret s' := by
  obtain ⟨k, m, n, h⟩ := h
  refine ⟨k, m, n, h.le, ?_, ?_, ?_, ?_⟩
  · rw [hroot, hkeys]; exact h.root
  · rw [hchain, hkeys]; exact h.chain
  · rw [hsent, hkeys]; exact h.sent
  · rw [hsent, hkeys]; exact h.distinct

/-- Sending takes the key at the place come to, and moves to the next. -/
theorem Sending.encrypt {s : Session} (h : Sending P secret s) (plaintext ad : Bytes) :
    Sending P secret (s.encrypt P plaintext ad) := by
  obtain ⟨k, m, n, h⟩ := h
  cases hsend : s.ratchet.sendChain with
  | none =>
    rw [Session.encrypt_of_none hsend]
    exact Sending.congr ⟨k, m, n, h⟩ rfl rfl rfl rfl
  | some chain =>
    obtain ⟨message, -, hs⟩ := Session.encrypt_of_some (P := P) hsend plaintext ad
    rw [hs]
    have hchain := h.chain chain hsend
    have hsub : ∀ x ∈ s.keys, x ∈ s.keys ++ kdfMessageKeys chain :=
      fun x hx => List.mem_append_left _ hx
    have hmessage : .messageKey chain ∈ s.keys ++ kdfMessageKeys chain :=
      List.mem_append_right _ List.mem_cons_self
    have hnext : .nextChainKey chain ∈ s.keys ++ kdfMessageKeys chain :=
      List.mem_append_right _ (List.mem_cons_of_mem _ List.mem_cons_self)
    refine ⟨k, m, n + 1, h.le, h.root.mono hsub, ?_, ?_, ?_⟩
    · intro chain' hmem
      obtain rfl := Option.some.inj hmem
      exact (hchain.mono hsub).step hnext
    · intro e he
      rcases List.mem_append.1 he with he | he
      · exact h.sent_mono (.inr ⟨rfl, Nat.le_succ n⟩) hsub e he
      · rw [List.mem_singleton.1 he]
        exact ⟨m, n, chain, hchain.mono hsub, hmessage, rfl, .inr ⟨rfl, Nat.lt_succ_self n⟩⟩
    · intro hkeys
      simp only [List.map_append, List.map_cons, List.map_nil]
      refine (h.distinct (hkeys.mono hsub)).append (List.nodup_singleton _) ?_
      rintro key hkey' hkey''
      obtain ⟨e, he, rfl⟩ := List.mem_map.1 hkey'
      rw [List.mem_singleton] at hkey''
      obtain ⟨m', n', chain', hchain', hmem', heq, hlt⟩ := h.sent_mono (.inr ⟨rfl, Nat.le_refl n⟩)
        hsub e he
      -- An equal key is of the same chain key, at an earlier place.
      obtain rfl := KdfOutput.messageKey.inj
        (hkeys.value_inj _ hmem' _ hmessage (heq.symm.trans hkey''))
      obtain ⟨rfl, rfl⟩ := hchain'.unique hkeys (hchain.mono hsub)
      unfold Before at hlt
      omega

/-- Taking up a message moves to a later chain, if at all. -/
theorem Sending.take {s : Session} (h : Sending P secret s) (message : RatchetMessage)
    (aad : Bytes) (derived : ℕ) (fresh : KeyPair) :
    Sending P secret (s.take P message aad derived fresh) := by
  obtain ⟨k, m, n, h⟩ := h
  have hturned := takeMessageKey_turned (P := P) fresh s.ratchet message.header
  have hsub : ∀ keys, ∀ x ∈ s.keys, x ∈ s.keys ++ keys := fun _ x hx => List.mem_append_left _ hx
  suffices hmoved : Sending P secret { s with
      ratchet := (takeMessageKey P fresh s.ratchet message.header).2
      keys := s.keys ++ turnToKeys P fresh s.ratchet message.header } by
    unfold Session.take
    dsimp only
    split <;> exact hmoved.congr rfl rfl rfl rfl
  generalize (takeMessageKey P fresh s.ratchet message.header).2 = state at hturned ⊢
  generalize turnToKeys P fresh s.ratchet message.header = keys at hturned ⊢
  cases hturned with
  | kept _ hroot hchain _ =>
    exact Sending.congr ⟨k, m, n, h⟩ hroot hchain rfl (List.append_nil _)
  | refused _ _ hroot hchain _ =>
    exact Sending.congr ⟨k, m, n, h⟩ hroot hchain rfl (List.append_nil _)
  | halfway dhRecv _ hroot hchain _ =>
    refine ⟨k + 1, m, n, Nat.le_succ_of_le h.le, ?_, ?_, ?_, ?_⟩
    · rw [hroot]
      exact (h.root.mono (hsub _)).step (List.mem_append_right _ List.mem_cons_self)
    · intro chain hmem
      rw [hchain] at hmem
      exact (h.chain chain hmem).mono (hsub _)
    · exact h.sent_mono (.inr ⟨rfl, Nat.le_refl n⟩) (hsub _)
    · exact fun hkeys => h.distinct (hkeys.mono (hsub _))
  | turned dhRecv dhSend _ hroot hchain _ =>
    have hrecv : Rooted P secret _ (k + 1) (rootKdf P s.ratchet.rootKey dhRecv).rootKey :=
      (h.root.mono (hsub (rootKdfKeys s.ratchet.rootKey dhRecv ++
        rootKdfKeys (rootKdf P s.ratchet.rootKey dhRecv).rootKey dhSend))).step
          (List.mem_append_right _ List.mem_cons_self)
    refine ⟨k + 2, k + 1, 0, Nat.le_succ _, ?_, ?_, ?_, ?_⟩
    · rw [hroot]
      exact hrecv.step (by simp [rootKdfKeys])
    · intro chain hmem
      rw [hchain] at hmem
      obtain rfl := Option.some.inj hmem
      exact .start hrecv (by simp [rootKdfKeys])
    · exact h.sent_mono (.inl (Nat.lt_succ_of_le h.le)) (hsub _)
    · exact fun hkeys => h.distinct (hkeys.mono (hsub _))

/-- What the other events leave alone. -/
structure SameRecord (s s' : Session) : Prop where
  sending : SameSending s.ratchet s'.ratchet
  sent : s'.sent = s.sent
  keys : s'.keys = s.keys
  generated : s'.generated = s.generated

theorem Session.dropKey_sameRecord (s : Session) (header : RatchetHeader) (held : Option ℕ) :
    SameRecord s (s.dropKey header held) := by
  have hdrop : SameSending s.ratchet (s.ratchet.dropSkipped header.dhPub header.counter) := by
    rw [dropSkipped_eq]
    exact ⟨rfl, rfl, rfl, rfl⟩
  unfold Session.dropKey
  dsimp only
  cases held with
  | none =>
    dsimp only
    split_ifs <;> exact ⟨hdrop, rfl, rfl, rfl⟩
  | some i =>
    dsimp only
    split_ifs
    · split <;> exact ⟨⟨rfl, rfl, rfl, rfl⟩, rfl, rfl, rfl⟩
    · exact ⟨⟨rfl, rfl, rfl, rfl⟩, rfl, rfl, rfl⟩

/-- The header of the message that an event makes a call take up, and the key pair that may
    be generated then. -/
def Session.takes (s : Session) : SessionEvent → Option (RatchetHeader × KeyPair)
  | .resume i fresh => s.calls[i]?.bind fun call =>
    match call.stage with
    | .missed message _ => some (message.header, fresh)
    | _ => none
  | _ => none

/-- A step encrypts, takes a message up, or leaves alone what is recorded of the sending
    side. -/
theorem step_cases {maxSkip : Option ℕ} {s s' : Session} {e : SessionEvent}
    (h : (session P secret maxSkip).step s e = some s') :
    (∃ plaintext ad, s' = s.encrypt P plaintext ad) ∨
      (∃ message aad derived fresh calls, s.takes e = some (message.header, fresh) ∧
        s' = { s with calls }.take P message aad derived fresh) ∨
      SameRecord s s' := by
  cases e with
  | encrypt plaintext ad => exact .inl ⟨plaintext, ad, (Option.some.inj h).symm⟩
  | decrypt message ad =>
    obtain rfl := Option.some.inj h
    exact .inr (.inr ⟨⟨rfl, rfl, rfl, rfl⟩, rfl, rfl, rfl⟩)
  | resume i fresh =>
    obtain ⟨call, hcall, h⟩ := Option.bind_eq_some_iff.1 h
    unfold Session.goOn at h
    cases hstage : call.stage with
    | sealing message =>
      rw [hstage] at h
      obtain rfl := Option.some.inj h
      exact .inr (.inr ⟨⟨rfl, rfl, rfl, rfl⟩, rfl, rfl, rfl⟩)
    | missed message aad =>
      simp only [hstage] at h
      split_ifs at h
      obtain rfl := Option.some.inj h
      refine .inr (.inl ⟨message, aad, call.derived, fresh, _, ?_, rfl⟩)
      rw [Session.takes, hcall, Option.bind_some, hstage]
    | openingSkipped message aad key held =>
      simp only [hstage] at h
      split at h
      · obtain rfl := Option.some.inj h
        exact .inr (.inr ⟨⟨rfl, rfl, rfl, rfl⟩, rfl, rfl, rfl⟩)
      · obtain rfl := Option.some.inj h
        obtain ⟨hsending, hsent, hkeys, hgenerated⟩ := Session.dropKey_sameRecord
          { s with calls := s.calls.eraseIdx i } message.header held
        exact .inr (.inr ⟨hsending, hsent, hkeys, hgenerated⟩)
    | opening message aad key =>
      simp only [hstage] at h
      split at h <;> obtain rfl := Option.some.inj h <;>
        exact .inr (.inr ⟨⟨rfl, rfl, rfl, rfl⟩, rfl, rfl, rfl⟩)
  | fail i =>
    obtain ⟨call, -, h⟩ := Option.bind_eq_some_iff.1 h
    unfold Session.failed at h
    split at h
    · obtain rfl := Option.some.inj h
      exact .inr (.inr ⟨⟨rfl, rfl, rfl, rfl⟩, rfl, rfl, rfl⟩)
    · simp at h
    · obtain rfl := Option.some.inj h
      exact .inr (.inr ⟨⟨rfl, rfl, rfl, rfl⟩, rfl, rfl, rfl⟩)

theorem sending_of_reachable {maxSkip : Option ℕ} {s : Session}
    (hs : (session P secret maxSkip).Reachable s) : Sending P secret s := by
  refine hs.invariant (I := Sending P secret) ?_ ?_
  · rintro s (⟨fresh, remote, dhOut, state, -, hdh, halice, rfl⟩ | ⟨selfDh, -, rfl⟩)
    · rw [initRatchetAsAlice, hdh] at halice
      obtain rfl := Option.some.inj halice
      have hroot : Rooted P secret (rootKdfKeys secret dhOut) 0 secret := .secret
      have hmem : .chainKey secret dhOut ∈ rootKdfKeys secret dhOut :=
        List.mem_cons_of_mem _ List.mem_cons_self
      refine ⟨1, 0, 0, Nat.zero_le _, hroot.step List.mem_cons_self, ?_,
        fun e he => absurd he List.not_mem_nil, fun _ => List.nodup_nil⟩
      intro chain hchain
      obtain rfl := Option.some.inj hchain
      exact .start hroot hmem
    · exact ⟨0, 0, 0, Nat.le_refl _, .secret, fun chain hchain => absurd hchain (by
        simp [Session.start, initRatchetAsBob]), fun e he => absurd he List.not_mem_nil,
        fun _ => List.nodup_nil⟩
  · intro s e s' _ h hstep
    rcases step_cases hstep with ⟨pt, ad, rfl⟩ | ⟨message, aad, derived, fresh, calls, -, rfl⟩ | hsame
    · exact h.encrypt pt ad
    · have h' : Sending P secret { s with calls } := h.congr rfl rfl rfl rfl
      exact h'.take message aad derived fresh
    · exact h.congr hsame.sending.rootKey hsame.sending.sendChain hsame.sent hsame.keys

/-- Whatever calls are made on a ratchet state, in whatever order they go on, no two calls of
    `encryptRatchet` take the same message key. -/
theorem messageKeys_nodup {maxSkip : Option ℕ} {s : Session}
    (hs : (session P secret maxSkip).Reachable s) (hkeys : NoCollision P secret s.keys) :
    (s.sent.map Sealed.messageKey).Nodup := by
  obtain ⟨k, m, n, h⟩ := sending_of_reachable hs
  exact h.distinct hkeys

/-! ## Headers -/

/-- A key pair that is generated is new. -/
def Session.Generates (s : Session) (e : SessionEvent) : Prop :=
  ∀ p ∈ s.takes e, p.2.publicKey ∉ s.generated

variable (P) in
/-- A key that X25519 refuses is taken up only before anything was sent on the chain. -/
def Session.Accepts (s : Session) (e : SessionEvent) : Prop :=
  ∀ p ∈ s.takes e, s.ratchet.refuses P p.1 = true → s.ratchet.sendCounter = 0

instance (s : Session) (e : SessionEvent) : Decidable (s.Generates e) :=
  inferInstanceAs (Decidable (∀ p ∈ s.takes e, _))

instance (s : Session) (e : SessionEvent) : Decidable (s.Accepts P e) :=
  inferInstanceAs (Decidable (∀ p ∈ s.takes e, _))

/-- What tells two headers of a ratchet state apart. -/
def Sealed.place (e : Sealed) : Bytes × ℕ := (e.header.dhPub, e.header.counter)

/-- The headers sent with the current key pair have counters below that of the state. -/
structure HeadersBelow (s : Session) : Prop where
  self : s.ratchet.dhSelf.publicKey ∈ s.generated
  generated : ∀ e ∈ s.sent, e.header.dhPub ∈ s.generated
  below : ∀ e ∈ s.sent, e.header.dhPub = s.ratchet.dhSelf.publicKey →
    e.header.counter < s.ratchet.sendCounter
  distinct : (s.sent.map Sealed.place).Nodup

theorem HeadersBelow.congr {s s' : Session} (h : HeadersBelow s)
    (hself : s'.ratchet.dhSelf = s.ratchet.dhSelf)
    (hcounter : s'.ratchet.sendCounter = s.ratchet.sendCounter) (hsent : s'.sent = s.sent)
    (hgenerated : ∀ k ∈ s.generated, k ∈ s'.generated) : HeadersBelow s' where
  self := by rw [hself]; exact hgenerated _ h.self
  generated e he := hgenerated _ (h.generated e (hsent ▸ he))
  below := by rw [hsent, hself, hcounter]; exact h.below
  distinct := by rw [hsent]; exact h.distinct

theorem HeadersBelow.encrypt {s : Session} (h : HeadersBelow s) (plaintext ad : Bytes) :
    HeadersBelow (s.encrypt P plaintext ad) := by
  cases hsend : s.ratchet.sendChain with
  | none =>
    rw [Session.encrypt_of_none hsend]
    exact h.congr rfl rfl rfl fun _ hk => hk
  | some chain =>
    obtain ⟨message, hheader, hs⟩ := Session.encrypt_of_some (P := P) hsend plaintext ad
    rw [hs]
    refine ⟨h.self, fun e he => ?_, fun e he hpub => ?_, ?_⟩
    · rcases List.mem_append.1 he with he | he
      · exact h.generated e he
      · rw [List.mem_singleton.1 he, hheader]
        exact h.self
    · rcases List.mem_append.1 he with he | he
      · exact Nat.lt_succ_of_lt (h.below e he hpub)
      · rw [List.mem_singleton.1 he, hheader]
        exact Nat.lt_succ_self _
    · simp only [List.map_append, List.map_cons, List.map_nil]
      refine h.distinct.append (List.nodup_singleton _) ?_
      rintro place hold hnew
      obtain ⟨e, he, rfl⟩ := List.mem_map.1 hold
      rw [List.mem_singleton, Sealed.place, Sealed.place, hheader, Prod.mk.injEq] at hnew
      exact absurd hnew.2 (Nat.ne_of_lt (h.below e he hnew.1))

/-- A new key pair has not been sent with. -/
theorem HeadersBelow.rotate {s s' : Session} (h : HeadersBelow s) {fresh : KeyPair}
    (hfresh : fresh.publicKey ∉ s.generated) (hself : s'.ratchet.dhSelf = fresh)
    (hsent : s'.sent = s.sent) (hgenerated : s'.generated = fresh.publicKey :: s.generated) :
    HeadersBelow s' where
  self := by rw [hself, hgenerated]; exact List.mem_cons_self
  generated e he := by
    rw [hgenerated]
    exact List.mem_cons_of_mem _ (h.generated e (hsent ▸ he))
  below e he hpub := by
    rw [hself] at hpub
    exact absurd (hpub ▸ h.generated e (hsent ▸ he)) hfresh
  distinct := by rw [hsent]; exact h.distinct

theorem HeadersBelow.take {s : Session} (h : HeadersBelow s) (message : RatchetMessage)
    (aad : Bytes) (derived : ℕ) {fresh : KeyPair} (hfresh : fresh.publicKey ∉ s.generated)
    (haccepts : s.ratchet.refuses P message.header = true → s.ratchet.sendCounter = 0) :
    HeadersBelow (s.take P message aad derived fresh) := by
  have hturned := takeMessageKey_turned (P := P) fresh s.ratchet message.header
  suffices hmoved : HeadersBelow { s with
      ratchet := (takeMessageKey P fresh s.ratchet message.header).2
      generated := fresh.publicKey :: s.generated } by
    unfold Session.take
    dsimp only
    split <;> exact hmoved.congr rfl rfl rfl fun _ hk => hk
  generalize (takeMessageKey P fresh s.ratchet message.header).2 = state at hturned ⊢
  generalize turnToKeys P fresh s.ratchet message.header = keys at hturned
  have hgenerated : ∀ k ∈ s.generated, k ∈ fresh.publicKey :: s.generated :=
    fun _ hk => List.mem_cons_of_mem _ hk
  cases hturned with
  | kept hself _ _ hcounter => exact h.congr hself hcounter rfl hgenerated
  | refused hrefuses hself _ _ hcounter =>
    exact h.congr hself (hcounter.trans (haccepts hrefuses).symm) rfl hgenerated
  | halfway _ hself _ _ _ => exact h.rotate hfresh hself rfl rfl
  | turned _ _ hself _ _ _ => exact h.rotate hfresh hself rfl rfl

theorem headersBelow_of_reachable {maxSkip : Option ℕ} {s : Session}
    (hs : (((session P secret maxSkip).restrict Session.Generates).restrict
      (Session.Accepts P)).Reachable s) : HeadersBelow s := by
  refine hs.invariant (I := HeadersBelow) ?_ ?_
  · have hstart : ∀ state keys, HeadersBelow (.start state keys) := fun state keys =>
      ⟨List.mem_singleton_self _, fun e he => absurd he List.not_mem_nil,
        fun e he => absurd he List.not_mem_nil, List.nodup_nil⟩
    rintro s (⟨_, _, _, state, -, -, -, rfl⟩ | ⟨_, -, rfl⟩) <;> exact hstart _ _
  · intro s e s' _ h hstep
    obtain ⟨haccepts, hstep⟩ := Machine.restrict_step.1 hstep
    obtain ⟨hgenerates, hstep⟩ := Machine.restrict_step.1 hstep
    rcases step_cases hstep with
      ⟨pt, ad, rfl⟩ | ⟨message, aad, derived, fresh, calls, htakes, rfl⟩ | hsame
    · exact h.encrypt pt ad
    · have h' : HeadersBelow { s with calls } := h.congr rfl rfl rfl fun _ hk => hk
      exact h'.take message aad derived (hgenerates _ htakes) (haccepts _ htakes)
    · refine h.congr hsame.sending.dhSelf hsame.sending.sendCounter hsame.sent fun _ hk => ?_
      rwa [hsame.generated]

/-- In a run in which no refused key is taken up after something was sent on the chain, no
    two calls of `encryptRatchet` take the same message key, seal with the same AES key and iv,
    or produce headers with the same key and counter. -/
theorem sent_nodup {maxSkip : Option ℕ} {s : Session}
    (hs : (((session P secret maxSkip).restrict Session.Generates).restrict
      (Session.Accepts P)).Reachable s)
    (hkeys : NoCollision P secret s.keys)
    (haead : ∀ k ∈ s.sent.map Sealed.messageKey, ∀ k' ∈ s.sent.map Sealed.messageKey,
      deriveMessageAead P k = deriveMessageAead P k' → k = k') :
    (s.sent.map Sealed.messageKey).Nodup ∧
      (s.sent.map fun e => deriveMessageAead P e.messageKey).Nodup ∧
      (s.sent.map Sealed.place).Nodup := by
  have hnodup := messageKeys_nodup hs.of_restrict.of_restrict hkeys
  refine ⟨hnodup, ?_, (headersBelow_of_reachable hs).distinct⟩
  have hmap := hnodup.map_on haead
  rwa [List.map_map] at hmap

/-! ### A key that is refused -/

/-- Primitives with derived keys that do not collide, and one public key that X25519
    refuses. -/
def refusingPrimitives : Primitives :=
  { samplePrimitives with
    getSharedSecret := fun a b => if b = [0] then none else some (List.zipWith (· + ·) a b)
    hkdf := fun ikm salt _ n =>
      let block := fun t : UInt8 => (t :: (ikm ++ salt) ++ List.replicate 32 0).take 32
      (block 1 ++ block 2).take n }

def refusingStart : Session :=
  .start ((initRatchetAsAlice refusingPrimitives (samplePair 2) [7] [1] none).get rfl)
    (rootKdfKeys [7] [3])

theorem refusingStart_init : (session refusingPrimitives [7] none).init refusingStart :=
  .inl ⟨samplePair 2, [1], [3], _, rfl, rfl, rfl, rfl⟩

/-- A message is sent, a message with this remote key arrives, and one more is sent. -/
def arrival (dhPub : Bytes) : List SessionEvent :=
  [.encrypt [1] [], .decrypt ⟨⟨dhPub, 0, 0⟩, []⟩ [], .resume 1 (samplePair 3), .encrypt [2] []]

/-- The two messages around the arrival of the refused key have the same header. -/
theorem headers_repeat : ∃ s,
    ((session refusingPrimitives [7] none).restrict Session.Generates).Reachable s ∧
      NoCollision refusingPrimitives [7] s.keys ∧
      s.sent.map Sealed.place = [([2], 0), ([2], 0)] ∧ ¬ (s.sent.map Sealed.place).Nodup := by
  have hsome : (((session refusingPrimitives [7] none).restrict Session.Generates).run
      refusingStart (arrival [0])).isSome := by decide +kernel
  obtain ⟨s, hrun, hs⟩ := Machine.exists_reachable hsome refusingStart_init
  have hsent : ∀ s ∈ ((session refusingPrimitives [7] none).restrict Session.Generates).run
      refusingStart (arrival [0]), NoCollision refusingPrimitives [7] s.keys ∧
        s.sent.map Sealed.place = [([2], 0), ([2], 0)] ∧
        ¬ (s.sent.map Sealed.place).Nodup := by decide +kernel
  exact ⟨s, hs, hsent s hrun⟩

theorem sent_nodup_arrival : ∃ s,
    (((session refusingPrimitives [7] none).restrict Session.Generates).restrict
      (Session.Accepts refusingPrimitives)).Reachable s ∧
      s.sent.map Sealed.place = [([2], 0), ([3], 0)] ∧
      (s.sent.map Sealed.messageKey).Nodup ∧
      (s.sent.map fun e => deriveMessageAead refusingPrimitives e.messageKey).Nodup ∧
      (s.sent.map Sealed.place).Nodup := by
  have hsome : ((((session refusingPrimitives [7] none).restrict Session.Generates).restrict
      (Session.Accepts refusingPrimitives)).run refusingStart (arrival [9])).isSome := by
    decide +kernel
  obtain ⟨s, hrun, hs⟩ := Machine.exists_reachable hsome refusingStart_init
  have hsent : ∀ s ∈ (((session refusingPrimitives [7] none).restrict
      Session.Generates).restrict (Session.Accepts refusingPrimitives)).run refusingStart
        (arrival [9]), s.sent.map Sealed.place = [([2], 0), ([3], 0)] ∧
      NoCollision refusingPrimitives [7] s.keys ∧
      ∀ k ∈ s.sent.map Sealed.messageKey, ∀ k' ∈ s.sent.map Sealed.messageKey,
        deriveMessageAead refusingPrimitives k = deriveMessageAead refusingPrimitives k' →
          k = k' := by decide +kernel
  obtain ⟨hplaces, hkeys, haead⟩ := hsent s hrun
  exact ⟨s, hs, hplaces, sent_nodup hs hkeys haead⟩

end OneToThree.Ratchet
