import Mathlib.Logic.Function.Basic
import OneToThree.Lib.Machine
import OneToThree.Ratchet.Skipped

/-!
# Delivery

Two sides of a ratchet session exchange messages over a network that delays,
reorders and loses them: `conversation`. Every delivered message decrypts to what
was sent.

The argument follows the history of the session, the *ledger*: the key pairs in
the order in which they were generated (`key 0` is the one Bob published,
`key 1` the first of Alice, and so on, in turn), from which the roots and the
chains of the session derive (`rootAt`, `chainKeyAt`), and how many messages each
chain has sent. A side is in the *epoch* of its current key pair, the two sides
being in adjacent epochs; it sends on the chain of its epoch and receives on the
one before (`Party`).

A message in flight is a message of some chain, and its receiver has not come to
that chain yet, or not come to it in that chain, or holds its key among the
skipped ones (`Flight.Awaited`). Sending, turning to a new chain, taking a key
from the chain, and taking a skipped key each keep this.
-/

namespace OneToThree.Ratchet

inductive Side
  | alice
  | bob
  deriving DecidableEq

def Side.other : Side → Side
  | .alice => .bob
  | .bob => .alice

/-- A message in flight, with what was sent. -/
structure Flight where
  receiver : Side
  message : RatchetMessage
  plaintext : Bytes
  associatedData : Bytes

structure Conversation where
  party : Side → RatchetState
  inFlight : List Flight
  /-- The public keys generated so far. -/
  generated : List Bytes

inductive ConversationEvent
  /-- A side encrypts a message. -/
  | send (sender : Side) (plaintext associatedData : Bytes)
  /-- The message at a position of those in flight is delivered, `fresh` being the key
      pair its receiver generates if it has to. -/
  | deliver (i : ℕ) (fresh : KeyPair)

variable (P : Primitives)

/-- The key pair is one that may be generated next. -/
def Conversation.Fresh (s : Conversation) (fresh : KeyPair) : Prop :=
  fresh.Proper P ∧ fresh.publicKey ∉ s.generated

instance (s : Conversation) (fresh : KeyPair) : Decidable (s.Fresh P fresh) :=
  inferInstanceAs (Decidable (fresh.publicKey = P.getPublicKey fresh.privateKey ∧ _))

/-- What the receiver of a message makes of it. -/
def Conversation.receive (s : Conversation) (f : Flight) (fresh : KeyPair) : Outcome Bytes :=
  decryptRatchet P fresh (s.party f.receiver) f.message f.associatedData

/-- The start of a session: Bob published `selfDh`, Alice generated `fresh`. -/
def Conversation.start (sharedSecret : Bytes) (selfDh fresh : KeyPair)
    (maxSkipAlice maxSkipBob : Option ℕ) : Option Conversation :=
  (initRatchetAsAlice P fresh sharedSecret selfDh.publicKey maxSkipAlice).map fun alice =>
    { party := fun
        | .alice => alice
        | .bob => initRatchetAsBob sharedSecret selfDh maxSkipBob
      inFlight := []
      generated := [fresh.publicKey, selfDh.publicKey] }

/-- The two sides and the network. Sending needs a send chain; a delivery is one that
    keeps within the limits of the receiver. A message that is never delivered is lost. -/
def conversation : Machine Conversation ConversationEvent where
  init s := ∃ sharedSecret selfDh fresh maxSkipAlice maxSkipBob,
    selfDh.Proper P ∧ fresh.Proper P ∧ fresh.publicKey ≠ selfDh.publicKey ∧
      some s = Conversation.start P sharedSecret selfDh fresh maxSkipAlice maxSkipBob
  step s
    | .send sender plaintext associatedData =>
      match encryptRatchet P (s.party sender) plaintext associatedData with
      | (.error _, _) => none
      | (.ok message, state) => some { s with
          party := Function.update s.party sender state
          inFlight := s.inFlight ++ [⟨sender.other, message, plaintext, associatedData⟩] }
    | .deliver i fresh =>
      match s.inFlight[i]? with
      | none => none
      | some f =>
        if s.Fresh P fresh ∧ (s.party f.receiver).WithinLimits f.message.header then
          some {
            party := Function.update s.party f.receiver (s.receive P f fresh).2
            inFlight := s.inFlight.eraseIdx i
            generated := fresh.publicKey :: s.generated }
        else none

/-! ## The ledger -/

/-- The agreement of a private key with a public key that is accepted. -/
def agreed (ourPrivate theirPublic : Bytes) : Bytes := (dh P ourPrivate theirPublic).getD []

/-- The root key of an epoch, from the shared secret and the key pairs. -/
def rootAt (secret : Bytes) (key : ℕ → KeyPair) : ℕ → Bytes
  | 0 => secret
  | i + 1 => (rootKdf P (rootAt secret key i)
      (agreed P (key i).privateKey (key (i + 1)).publicKey)).rootKey

/-- The chain key that an epoch starts with. -/
def chainKeyAt (secret : Bytes) (key : ℕ → KeyPair) : ℕ → Bytes
  | 0 => []
  | i + 1 => (rootKdf P (rootAt P secret key i)
      (agreed P (key i).privateKey (key (i + 1)).publicKey)).chainKey

theorem agreed_comm {P : Primitives} (hP : P.Ideal) {k k' : KeyPair} (hk : k.Proper P)
    (hk' : k'.Proper P) :
    agreed P k.privateKey k'.publicKey = agreed P k'.privateKey k.publicKey := by
  rw [agreed, dh_comm hP hk hk', agreed]

/-- The history of a session. -/
structure Ledger where
  secret : Bytes
  /-- The key pairs, in the order in which they were generated. -/
  key : ℕ → KeyPair
  /-- How many messages the chain of an epoch has sent. -/
  sent : ℕ → ℕ
  /-- The epoch that a side is in. -/
  epoch : Side → ℕ

namespace Ledger

/-- The key of the message number `c` of the chain of the epoch `j`. -/
def messageKey (L : Ledger) (j c : ℕ) : Bytes := messageKeyAt P (chainKeyAt P L.secret L.key j) c

/-- The epoch has been entered. -/
def Known (L : Ledger) (i : ℕ) : Prop := ∃ x, i ≤ L.epoch x

/-- The bucket of the keys of the epoch `j`. -/
def bucket (L : Ledger) (j : ℕ) : String := bytesToB64 (L.key j).publicKey

/-- The header of the message number `c` of the chain of the epoch `j`. -/
def header (L : Ledger) (j c : ℕ) : RatchetHeader := ⟨(L.key j).publicKey, L.sent (j - 2), c⟩

end Ledger

theorem rootAt_congr {secret : Bytes} {key key' : ℕ → KeyPair} {n : ℕ}
    (h : ∀ i ≤ n, key' i = key i) : rootAt P secret key' n = rootAt P secret key n := by
  induction n with
  | zero => rfl
  | succ n ih =>
    rw [rootAt, rootAt, ih fun i hi => h i (by omega), h n (by omega), h (n + 1) (Nat.le_refl _)]

theorem chainKeyAt_congr {secret : Bytes} {key key' : ℕ → KeyPair} {n : ℕ}
    (h : ∀ i ≤ n, key' i = key i) : chainKeyAt P secret key' n = chainKeyAt P secret key n := by
  cases n with
  | zero => rfl
  | succ n =>
    rw [chainKeyAt, chainKeyAt, rootAt_congr P fun i hi => h i (by omega), h n (by omega),
      h (n + 1) (Nat.le_refl _)]

/-- The state of a side in the epoch `e`. -/
structure Party (L : Ledger) (e : ℕ) (state : RatchetState) : Prop where
  dhSelf : state.dhSelf = L.key e
  dhRemote : state.dhRemote = if e = 0 then none else some (L.key (e - 1)).publicKey
  rootKey : state.rootKey = rootAt P L.secret L.key e
  sendChain : state.sendChain =
    if e = 0 then none else some (chainAt P (chainKeyAt P L.secret L.key e) (L.sent e))
  recvChain : state.recvChain = if e ≤ 1 then none else
    some (chainAt P (chainKeyAt P L.secret L.key (e - 1)) state.recvCounter)
  sendCounter : state.sendCounter = L.sent e
  prevSendCounter : state.prevSendCounter = L.sent (e - 2)
  recvCounter_le : state.recvCounter ≤ L.sent (e - 1)

/-- The flight carries the message number `c` of the chain of the epoch `j`, a chain of
    its sender. -/
structure Flight.Carries (L : Ledger) (f : Flight) (j c : ℕ) : Prop where
  le : j ≤ L.epoch f.receiver.other
  parity : j % 2 = L.epoch f.receiver.other % 2
  lt : c < L.sent j
  header : f.message.header = L.header j c
  ciphertext : f.message.ciphertext = sealWith P (L.messageKey P j c) f.plaintext
    (f.associatedData ++ headerAad f.message.header)

/-- The receiver of the message number `c` of the chain of the epoch `j` can still get
    its key: it has not come to that chain, or not to that message, or skipped it. -/
def Awaited (L : Ledger) (e : ℕ) (state : RatchetState) (j c : ℕ) : Prop :=
  j = e + 1 ∨ (j + 1 = e ∧ state.recvCounter ≤ c) ∨
    storedKey state.skipped (L.bucket j) c = some (L.messageKey P j c)

/-- What tells the messages in flight apart. -/
def Flight.slot (f : Flight) : Bytes × ℕ := (f.message.header.dhPub, f.message.header.counter)

/-- The ledger is a history of the conversation. -/
structure Tracked (s : Conversation) (L : Ledger) : Prop where
  adjacent : ∀ x, L.epoch x = L.epoch x.other + 1 ∨ L.epoch x.other = L.epoch x + 1
  proper : ∀ i, L.Known i → (L.key i).Proper P
  generated : ∀ i, L.Known i → (L.key i).publicKey ∈ s.generated
  key_inj : ∀ i j, L.Known i → L.Known j → (L.key i).publicKey = (L.key j).publicKey → i = j
  sent_zero : L.sent 0 = 0
  sent_beyond : ∀ j, ¬ L.Known j → L.sent j = 0
  party : ∀ x, Party P L (L.epoch x) (s.party x)
  stored : ∀ x b c mk, storedKey (s.party x).skipped b c = some mk →
    ∃ j, L.Known j ∧ b = L.bucket j ∧ mk = L.messageKey P j c
  flights : ∀ f ∈ s.inFlight, ∃ j c,
    f.Carries P L j c ∧ Awaited P L (L.epoch f.receiver) (s.party f.receiver) j c
  slots : (s.inFlight.map Flight.slot).Nodup

/-! ### What does not depend on the later history -/

variable {P}

@[simp] theorem Side.other_ne (x : Side) : x.other ≠ x := by cases x <;> decide

theorem Side.eq_or_eq_other (x y : Side) : y = x ∨ y = x.other := by
  cases x <;> cases y <;> simp [Side.other]

@[simp] theorem Side.other_other (x : Side) : x.other.other = x := by cases x <;> rfl

theorem Ledger.known_iff {L : Ledger} (x : Side) {i : ℕ} :
    L.Known i ↔ i ≤ L.epoch x ∨ i ≤ L.epoch x.other := by
  constructor
  · rintro ⟨y, hy⟩
    rcases x.eq_or_eq_other y with rfl | rfl
    · exact .inl hy
    · exact .inr hy
  · rintro (h | h)
    exacts [⟨_, h⟩, ⟨_, h⟩]

theorem Ledger.messageKey_congr {L L' : Ledger} (hsecret : L'.secret = L.secret) {j : ℕ}
    (hkey : ∀ i ≤ j, L'.key i = L.key i) (c : ℕ) :
    L'.messageKey P j c = L.messageKey P j c := by
  rw [messageKey, messageKey, hsecret, chainKeyAt_congr P hkey]

theorem Ledger.bucket_congr {L L' : Ledger} {j : ℕ} (hkey : L'.key j = L.key j) :
    L'.bucket j = L.bucket j := by
  rw [bucket, bucket, hkey]

theorem Party.congr {L L' : Ledger} {e : ℕ} {state : RatchetState} (h : Party P L e state)
    (hsecret : L'.secret = L.secret) (hkey : ∀ i ≤ e, L'.key i = L.key i)
    (hsent : L'.sent e = L.sent e) (hprev : L'.sent (e - 2) = L.sent (e - 2))
    (hrecv : L.sent (e - 1) ≤ L'.sent (e - 1)) : Party P L' e state where
  dhSelf := by rw [h.dhSelf, hkey e (Nat.le_refl _)]
  dhRemote := by rw [h.dhRemote, hkey (e - 1) (by omega)]
  rootKey := by rw [h.rootKey, hsecret, rootAt_congr P hkey]
  sendChain := by rw [h.sendChain, hsecret, hsent, chainKeyAt_congr P hkey]
  recvChain := by rw [h.recvChain, hsecret, chainKeyAt_congr P fun i hi => hkey i (by omega)]
  sendCounter := by rw [h.sendCounter, hsent]
  prevSendCounter := by rw [h.prevSendCounter, hprev]
  recvCounter_le := Nat.le_trans h.recvCounter_le hrecv

theorem Flight.Carries.congr {L L' : Ledger} {f : Flight} {j c : ℕ} (h : f.Carries P L j c)
    (hsecret : L'.secret = L.secret) (hkey : ∀ i ≤ j, L'.key i = L.key i)
    (hle : j ≤ L'.epoch f.receiver.other) (hparity : j % 2 = L'.epoch f.receiver.other % 2)
    (hsent : L.sent j ≤ L'.sent j) (hprev : L'.sent (j - 2) = L.sent (j - 2)) :
    f.Carries P L' j c where
  le := hle
  parity := hparity
  lt := Nat.lt_of_lt_of_le h.lt hsent
  header := by rw [h.header, Ledger.header, Ledger.header, hprev, hkey j (Nat.le_refl _)]
  ciphertext := by rw [h.ciphertext, Ledger.messageKey_congr hsecret hkey]

theorem Awaited.congr {L L' : Ledger} {e : ℕ} {state : RatchetState} {j c : ℕ}
    (h : Awaited P L e state j c) (hsecret : L'.secret = L.secret)
    (hkey : ∀ i ≤ j, L'.key i = L.key i) : Awaited P L' e state j c := by
  rwa [Awaited, Ledger.messageKey_congr hsecret hkey, Ledger.bucket_congr (hkey j (Nat.le_refl _))]

/-- A carried message is of a chain that has been started, after the first epoch. -/
theorem Flight.Carries.pos {s : Conversation} {L : Ledger} (ht : Tracked P s L) {f : Flight}
    {j c : ℕ} (h : f.Carries P L j c) : 1 ≤ j := by
  rcases Nat.eq_zero_or_pos j with rfl | hj
  · exact absurd h.lt (by rw [ht.sent_zero]; omega)
  · exact hj

theorem Flight.Carries.slot {L : Ledger} {f : Flight} {j c : ℕ} (h : f.Carries P L j c) :
    f.slot = ((L.key j).publicKey, c) := by
  rw [Flight.slot, h.header, Ledger.header]

/-! ### Sending -/

theorem Party.encrypt {L : Ledger} {e : ℕ} {state state' : RatchetState} (h : Party P L e state)
    {plaintext ad : Bytes} {message : RatchetMessage}
    (henc : encryptRatchet P state plaintext ad = (.ok message, state')) :
    e ≠ 0 ∧ message.header = L.header e (L.sent e) ∧
      message.ciphertext = sealWith P (L.messageKey P e (L.sent e)) plaintext
        (ad ++ headerAad message.header) ∧
      state' = { state with
        sendChain := some (chainAt P (chainKeyAt P L.secret L.key e) (L.sent e + 1))
        sendCounter := L.sent e + 1 } := by
  unfold encryptRatchet at henc
  rw [h.sendChain] at henc
  by_cases he : e = 0
  · simp [he] at henc
  · simp only [if_neg he, Prod.mk.injEq, Except.ok.injEq] at henc
    obtain ⟨rfl, rfl⟩ := henc
    refine ⟨he, ?_, ?_, ?_⟩
    · rw [Ledger.header, h.dhSelf, h.prevSendCounter, h.sendCounter]
    · rfl
    · rw [← h.sendCounter]; rfl

/-- Sending is one more message of the sender's chain. -/
theorem Tracked.send {s : Conversation} {L : Ledger} (ht : Tracked P s L) {x : Side}
    {plaintext ad : Bytes} {message : RatchetMessage} {state : RatchetState}
    (henc : encryptRatchet P (s.party x) plaintext ad = (.ok message, state)) :
    ∃ L', Tracked P { s with
      party := Function.update s.party x state
      inFlight := s.inFlight ++ [⟨x.other, message, plaintext, ad⟩] } L' := by
  obtain ⟨he, hheader, hcipher, rfl⟩ := (ht.party x).encrypt henc
  set e := L.epoch x with hedef
  have hadj := ht.adjacent x
  let L' : Ledger := { L with sent := Function.update L.sent e (L.sent e + 1) }
  have hne : ∀ j, j ≠ e → L'.sent j = L.sent j := fun j hj => Function.update_of_ne hj _ _
  have hself : L'.sent e = L.sent e + 1 := Function.update_self ..
  have hmono : ∀ j, L.sent j ≤ L'.sent j := fun j => by
    by_cases hj : j = e
    · rw [hj, hself]; omega
    · exact Nat.le_of_eq (hne j hj).symm
  refine ⟨L', ht.adjacent, ht.proper, ht.generated, ht.key_inj, ?_, ?_, ?_, ?_, ?_, ?_⟩
  · rw [hne 0 (Ne.symm he), ht.sent_zero]
  · intro j hj
    have : j ≠ e := fun h => hj ⟨x, Nat.le_of_eq h⟩
    rw [hne j this]
    exact ht.sent_beyond j hj
  · intro y
    have hprev : L'.sent (L.epoch y - 2) = L.sent (L.epoch y - 2) := by
      rcases x.eq_or_eq_other y with rfl | rfl <;> exact hne _ (by omega)
    rcases x.eq_or_eq_other y with rfl | rfl
    · -- The sender has moved on in its chain.
      have hp := ht.party y
      dsimp only
      rw [Function.update_self]
      exact ⟨hp.dhSelf, hp.dhRemote, hp.rootKey, by rw [if_neg he, hself], hp.recvChain,
        hself.symm, hp.prevSendCounter.trans hprev.symm,
        Nat.le_trans hp.recvCounter_le (hmono _)⟩
    · dsimp only
      rw [Function.update_of_ne x.other_ne]
      exact (ht.party _).congr rfl (fun _ _ => rfl) (hne _ (by dsimp [L']; omega)) hprev (hmono _)
  · intro y b c mk hmk
    refine ht.stored y b c mk ?_
    rcases x.eq_or_eq_other y with rfl | rfl
    · simpa using hmk
    · simpa [Function.update_of_ne x.other_ne] using hmk
  · intro f hf
    rcases List.mem_append.1 hf with hf | hf
    · obtain ⟨j, c, hc, ha⟩ := ht.flights f hf
      have hle := hc.le
      have hpos := hc.pos ht
      have hknown : j ≤ e ∨ j ≤ L.epoch x.other := (L.known_iff x).1 ⟨_, hle⟩
      refine ⟨j, c, hc.congr rfl (fun _ _ => rfl) hle hc.parity (hmono j) (hne _ (by omega)), ?_⟩
      -- The receiver's chain of reception and store are as they were.
      rcases x.eq_or_eq_other f.receiver with hx | hx <;> rw [hx] at ha ⊢
      · simpa [Awaited, Ledger.bucket, Ledger.messageKey] using ha
      · simpa [Awaited, Ledger.bucket, Ledger.messageKey, Function.update_of_ne x.other_ne]
          using ha
    · obtain rfl := List.mem_singleton.1 hf
      refine ⟨e, L.sent e, ⟨?_, ?_, ?_, ?_, ?_⟩, ?_⟩
      · simp [L', hedef]
      · simp [L', hedef]
      · rw [hself]; omega
      · rw [hheader, Ledger.header, Ledger.header, hne (e - 2) (by omega)]
      · exact hcipher
      · dsimp only
        rw [Function.update_of_ne x.other_ne]
        rcases hadj with hadj | hadj
        · exact .inl hadj
        · -- The receiver is on this chain, and has received fewer of it than were sent.
          have hp := (ht.party x.other).recvCounter_le
          have hpred : L.epoch x.other - 1 = e := by omega
          rw [hpred] at hp
          exact .inr (.inl ⟨hadj.symm, hp⟩)
  · rw [List.map_append, List.nodup_append]
    refine ⟨ht.slots, List.nodup_singleton _, ?_⟩
    rintro a ha b hb rfl
    obtain ⟨f, hf, hfa⟩ := List.mem_map.1 ha
    obtain ⟨j, c, hc, -⟩ := ht.flights f hf
    have hslot : ((L.key j).publicKey, c) = ((L.key e).publicKey, L.sent e) := by
      rw [← hc.slot, hfa, List.mem_singleton.1 hb, Flight.slot, hheader, Ledger.header]
    obtain ⟨hpub, hcount⟩ := Prod.mk.inj hslot
    obtain rfl := ht.key_inj j e ⟨_, hc.le⟩ ⟨x, Nat.le_refl _⟩ hpub
    exact Nat.lt_irrefl _ (hcount ▸ hc.lt)

/-! ### Receiving -/

theorem openWith_sealWith (hP : P.Ideal) (mk plaintext aad : Bytes) :
    openWith P mk (sealWith P mk plaintext aad) aad = some plaintext :=
  hP.decrypt_encrypt ..

theorem Tracked.bucket_inj {s : Conversation} {L : Ledger} (ht : Tracked P s L) {i j : ℕ}
    (hi : L.Known i) (hj : L.Known j) (h : L.bucket i = L.bucket j) : i = j :=
  ht.key_inj i j hi hj (bytesToB64_inj.1 h)

/-- A reception that leaves its side in the same epoch. -/
theorem Tracked.receive {s : Conversation} {L : Ledger} (ht : Tracked P s L) {x : Side}
    {state : RatchetState} {inFlight : List Flight} {generated : List Bytes}
    (hp : Party P L (L.epoch x) state)
    (hstored : ∀ b c mk, storedKey state.skipped b c = some mk →
      ∃ j, L.Known j ∧ b = L.bucket j ∧ mk = L.messageKey P j c)
    (hsub : inFlight.Sublist s.inFlight) (hgen : ∀ k ∈ s.generated, k ∈ generated)
    (hawait : ∀ f ∈ inFlight, f.receiver = x → ∀ j c, f.Carries P L j c →
      Awaited P L (L.epoch x) (s.party x) j c → Awaited P L (L.epoch x) state j c) :
    Tracked P ⟨Function.update s.party x state, inFlight, generated⟩ L where
  adjacent := ht.adjacent
  proper := ht.proper
  generated i hi := hgen _ (ht.generated i hi)
  key_inj := ht.key_inj
  sent_zero := ht.sent_zero
  sent_beyond := ht.sent_beyond
  party y := by
    rcases x.eq_or_eq_other y with rfl | rfl
    · dsimp only
      rwa [Function.update_self]
    · dsimp only
      rw [Function.update_of_ne x.other_ne]
      exact ht.party _
  stored y b c mk hmk := by
    rcases x.eq_or_eq_other y with rfl | rfl
    · dsimp only at hmk
      rw [Function.update_self] at hmk
      exact hstored b c mk hmk
    · dsimp only at hmk
      rw [Function.update_of_ne x.other_ne] at hmk
      exact ht.stored _ b c mk hmk
  flights f hf := by
    obtain ⟨j, c, hc, ha⟩ := ht.flights f (hsub.mem hf)
    refine ⟨j, c, hc, ?_⟩
    dsimp only
    rcases x.eq_or_eq_other f.receiver with hx | hx
    · rw [hx] at ha
      rw [hx, Function.update_self]
      exact hawait f hf hx j c hc ha
    · rw [hx] at ha
      rwa [hx, Function.update_of_ne x.other_ne]
  slots := ht.slots.sublist (hsub.map _)

/-- Once a message is delivered, the others in flight are other messages. -/
theorem Tracked.slot_ne {s : Conversation} {L : Ledger} (ht : Tracked P s L) {i : ℕ} {f g : Flight}
    (hf : s.inFlight[i]? = some f) (hg : g ∈ s.inFlight.eraseIdx i) : g.slot ≠ f.slot := by
  obtain ⟨k, hk, hki, rfl⟩ := List.mem_eraseIdx_iff_getElem.1 hg
  obtain ⟨hi, rfl⟩ := List.getElem?_eq_some_iff.1 hf
  intro h
  have hslots : (s.inFlight.map Flight.slot).get ⟨k, by simpa using hk⟩ =
      (s.inFlight.map Flight.slot).get ⟨i, by simpa using hi⟩ := by simpa using h
  exact hki (congrArg Fin.val (List.nodup_iff_injective_get.1 ht.slots hslots))

theorem Tracked.carries_ne {s : Conversation} {L : Ledger} (ht : Tracked P s L) {i : ℕ}
    {f g : Flight} (hf : s.inFlight[i]? = some f) (hg : g ∈ s.inFlight.eraseIdx i) {j c j' c' : ℕ}
    (hfc : f.Carries P L j c) (hgc : g.Carries P L j' c') : ¬ (j' = j ∧ c' = c) := by
  rintro ⟨rfl, rfl⟩
  exact ht.slot_ne hf hg (hgc.slot.trans hfc.slot.symm)

/-- A message whose key was skipped is delivered by dropping the key. -/
theorem Tracked.dropSkipped {s : Conversation} {L : Ledger} (ht : Tracked P s L) {i : ℕ}
    {f : Flight} (hf : s.inFlight[i]? = some f) {j c : ℕ} (hc : f.Carries P L j c)
    {generated : List Bytes} (hgen : ∀ k ∈ s.generated, k ∈ generated) :
    Tracked P ⟨Function.update s.party f.receiver
      ((s.party f.receiver).dropSkipped (L.key j).publicKey c),
      s.inFlight.eraseIdx i, generated⟩ L := by
  have hstate := dropSkipped_eq (s.party f.receiver) (L.key j).publicKey c
  have hkeys := storedKey_dropSkipped (s.party f.receiver) (L.key j).publicKey c
  generalize (s.party f.receiver).dropSkipped (L.key j).publicKey c = state at hstate hkeys
  have hp := ht.party f.receiver
  refine ht.receive ?_ (fun b c' mk hmk => ?_) (List.eraseIdx_sublist ..) hgen
    fun g hg hx j' c' hgc ha => ?_
  · rw [hstate]
    exact ⟨hp.dhSelf, hp.dhRemote, hp.rootKey, hp.sendChain, hp.recvChain, hp.sendCounter,
      hp.prevSendCounter, hp.recvCounter_le⟩
  · rw [hkeys] at hmk
    split_ifs at hmk
    exact ht.stored _ b c' mk hmk
  · rcases ha with ha | ha | ha
    · exact .inl ha
    · exact .inr (.inl (by rwa [hstate]))
    · refine .inr (.inr ?_)
      rw [hkeys, if_neg, ha]
      rintro ⟨hb, hcc⟩
      have hj : j' = j := ht.bucket_inj ⟨_, hgc.le⟩ ⟨_, hc.le⟩ hb
      exact ht.carries_ne hf hg hc hgc ⟨hj, hcc⟩

/-- The state after taking the key number `c` of the chain of the epoch `j` from the
    receive chain, the state `cached` being the one with the keys before it cached. -/
def takeKey (L : Ledger) (j c : ℕ) (cached : RatchetState) : RatchetState :=
  { cached with
    recvChain := some (chainAt P (chainKeyAt P L.secret L.key j) (c + 1))
    recvCounter := c + 1 }

/-- A message of the chain that its receiver is on is delivered by caching the keys
    before its own, and taking that one. -/
theorem Tracked.take {s : Conversation} {L : Ledger} (ht : Tracked P s L) {i : ℕ} {f : Flight}
    (hf : s.inFlight[i]? = some f) {j c : ℕ} (hc : f.Carries P L j c)
    (hj : j + 1 = L.epoch f.receiver) (hle : (s.party f.receiver).recvCounter ≤ c) :
    (∃ e state', cacheSkipped P (s.party f.receiver) (L.key j).publicKey c = (.error e, state') ∧
        e.IsLimit) ∨
      ∃ cached, cacheSkipped P (s.party f.receiver) (L.key j).publicKey c = (.ok (), cached) ∧
        cached.recvChain = some (chainAt P (chainKeyAt P L.secret L.key j) c) ∧
        cached.recvCounter = c ∧
        Tracked P ⟨Function.update s.party f.receiver (takeKey (P := P) L j c cached),
          s.inFlight.eraseIdx i, s.generated⟩ L := by
  have hp := ht.party f.receiver
  have hpos := hc.pos ht
  have hpred : L.epoch f.receiver - 1 = j := by omega
  have hchain : (s.party f.receiver).recvChain =
      some (chainAt P (chainKeyAt P L.secret L.key j) (s.party f.receiver).recvCounter) := by
    rw [hp.recvChain, if_neg (by omega), hpred]
  refine (cacheSkipped_cases (L.key j).publicKey c hchain).imp id ?_
  rintro ⟨cached, hcache, heq, hkeys⟩
  rw [Nat.max_eq_right hle] at heq
  refine ⟨cached, hcache, by rw [heq], by rw [heq], ?_⟩
  refine ht.receive ?_ (fun b c' mk hmk => ?_) (List.eraseIdx_sublist ..) (fun _ h => h)
    fun g hg hx j' c' hgc ha => ?_
  · rw [takeKey, heq]
    refine ⟨hp.dhSelf, hp.dhRemote, hp.rootKey, hp.sendChain, ?_, hp.sendCounter,
      hp.prevSendCounter, ?_⟩
    · rw [if_neg (by omega), hpred]
    · rw [hpred]
      exact hc.lt
  · rw [takeKey, hkeys] at hmk
    split_ifs at hmk with hnew
    · exact ⟨j, ⟨_, hc.le⟩, hnew.1, (Option.some.inj hmk).symm⟩
    · exact ht.stored _ b c' mk hmk
  · have hstored : storedKey (takeKey (P := P) L j c cached).skipped (L.bucket j') c' =
        if L.bucket j' = L.bucket j ∧ (s.party f.receiver).recvCounter ≤ c' ∧ c' < c
        then some (L.messageKey P j c') else
          storedKey (s.party f.receiver).skipped (L.bucket j') c' := hkeys _ _
    rcases ha with ha | ⟨ha, hca⟩ | ha
    · exact .inl ha
    · -- A message of the same chain: before the one delivered or after it.
      have hjj : j' = j := by omega
      subst hjj
      have hne : c' ≠ c := fun h => ht.carries_ne hf hg hc hgc ⟨rfl, h⟩
      rcases Nat.lt_or_gt_of_ne hne with hlt | hgt
      · exact .inr (.inr (by rw [hstored, if_pos ⟨rfl, hca, hlt⟩]))
      · exact .inr (.inl ⟨ha, hgt⟩)
    · refine .inr (.inr ?_)
      rw [hstored]
      split_ifs with hnew
      · rw [ht.bucket_inj ⟨_, hgc.le⟩ ⟨_, hc.le⟩ hnew.1]
      · exact ha

/-! ### Turning -/

/-- The DH ratchet step on a remote key that is accepted. -/
def RatchetState.turned (P : Primitives) (fresh : KeyPair) (state : RatchetState)
    (newRemote : Bytes) : RatchetState :=
  let recv := rootKdf P state.rootKey (agreed P state.dhSelf.privateKey newRemote)
  let send := rootKdf P recv.rootKey (agreed P fresh.privateKey newRemote)
  { state with
    prevSendCounter := state.sendCounter
    sendCounter := 0
    recvCounter := 0
    dhRemote := some newRemote
    recvChain := some recv.chainKey
    dhSelf := fresh
    rootKey := send.rootKey
    sendChain := some send.chainKey }

/-- A key pair generated by the other side is accepted. -/
theorem dhRatchetStep_proper (hP : P.Ideal) (fresh : KeyPair) (state : RatchetState)
    {remote : KeyPair} (h : remote.Proper P) :
    dhRatchetStep P fresh state remote.publicKey =
      (.ok (), state.turned P fresh remote.publicKey) := by
  obtain ⟨recv, hrecv⟩ := dh_accepts hP state.dhSelf.privateKey h
  obtain ⟨send, hsend⟩ := dh_accepts hP fresh.privateKey h
  simp only [dhRatchetStep, RatchetState.turned, agreed, hrecv, hsend, Option.getD_some]

/-- The history after `x` generated `fresh`, turning to the next chain of the other. -/
def Ledger.turn (L : Ledger) (x : Side) (fresh : KeyPair) : Ledger :=
  { L with
    key := Function.update L.key (L.epoch x + 2) fresh
    epoch := Function.update L.epoch x (L.epoch x + 2) }

section
variable {L : Ledger} {x : Side} {fresh : KeyPair}

theorem Ledger.turn_key {i : ℕ} (h : i ≤ L.epoch x + 1) : (L.turn x fresh).key i = L.key i :=
  Function.update_of_ne (by omega) _ _

theorem Ledger.turn_key_self : (L.turn x fresh).key (L.epoch x + 2) = fresh :=
  Function.update_self ..

theorem Ledger.turn_epoch_self : (L.turn x fresh).epoch x = L.epoch x + 2 :=
  Function.update_self ..

theorem Ledger.turn_epoch_other : (L.turn x fresh).epoch x.other = L.epoch x.other :=
  Function.update_of_ne x.other_ne _ _

variable {s : Conversation} (ht : Tracked P s L) (hother : L.epoch x.other = L.epoch x + 1)
include hother

theorem Ledger.known_turn {i : ℕ} :
    (L.turn x fresh).Known i ↔ L.Known i ∨ i = L.epoch x + 2 := by
  rw [Ledger.known_iff x, Ledger.known_iff x, turn_epoch_self, turn_epoch_other]
  omega

theorem Ledger.Known.le {i : ℕ} (hi : L.Known i) : i ≤ L.epoch x + 1 := by
  rw [Ledger.known_iff x] at hi
  omega

theorem Flight.Carries.turn {f : Flight} {j c : ℕ} (hc : f.Carries P L j c) :
    f.Carries P (L.turn x fresh) j c := by
  have hle := hc.le
  have hparity := hc.parity
  refine hc.congr rfl (fun i hi => Ledger.turn_key ?_) ?_ ?_ (Nat.le_refl _) rfl
  · have := Ledger.Known.le (x := x) hother ⟨_, hle⟩
    omega
  · rcases x.eq_or_eq_other f.receiver.other with h | h <;> rw [h] at hle ⊢
    · rw [Ledger.turn_epoch_self]; omega
    · rwa [Ledger.turn_epoch_other]
  · rcases x.eq_or_eq_other f.receiver.other with h | h <;> rw [h] at hparity ⊢
    · rw [Ledger.turn_epoch_self]; omega
    · rwa [Ledger.turn_epoch_other]

include ht

/-- The DH ratchet step, once no message of the chain left behind waits for it. -/
theorem Tracked.turn (hP : P.Ideal) (hfresh : s.Fresh P fresh)
    (hleft : ∀ f ∈ s.inFlight, f.receiver = x → ∀ j c, f.Carries P L j c →
      Awaited P L (L.epoch x) (s.party x) j c → j = L.epoch x + 1 ∨
        storedKey (s.party x).skipped (L.bucket j) c = some (L.messageKey P j c)) :
    Tracked P ⟨Function.update s.party x
        ((s.party x).turned P fresh (L.key (L.epoch x + 1)).publicKey),
      s.inFlight, fresh.publicKey :: s.generated⟩ (L.turn x fresh) := by
  have hp := ht.party x
  have hknown : L.Known (L.epoch x + 1) := ⟨x.other, Nat.le_of_eq hother.symm⟩
  have hkey : ∀ i ≤ L.epoch x + 1, (L.turn x fresh).key i = L.key i :=
    fun i hi => Ledger.turn_key hi
  have hmessageKey : ∀ {j}, L.Known j → ∀ c,
      (L.turn x fresh).messageKey P j c = L.messageKey P j c := fun hj c =>
    Ledger.messageKey_congr (by rfl) (fun i hi => hkey i (Nat.le_trans hi (hj.le hother))) c
  have hbucket : ∀ {j}, L.Known j → (L.turn x fresh).bucket j = L.bucket j := fun hj =>
    Ledger.bucket_congr (hkey _ (hj.le hother))
  -- The public key of the new pair is not that of an old one.
  have hnew : ∀ i, L.Known i → (L.key i).publicKey ≠ fresh.publicKey := fun i hi h =>
    hfresh.2 (h ▸ ht.generated i hi)
  refine ⟨?_, ?_, ?_, ?_, ht.sent_zero, ?_, ?_, ?_, ?_, ht.slots⟩
  · intro y
    rcases x.eq_or_eq_other y with rfl | rfl
    · rw [Ledger.turn_epoch_self, Ledger.turn_epoch_other]; omega
    · rw [Side.other_other, Ledger.turn_epoch_self, Ledger.turn_epoch_other]; omega
  · intro i hi
    rcases (Ledger.known_turn hother).1 hi with hi | rfl
    · rw [hkey i (hi.le hother)]
      exact ht.proper i hi
    · rw [Ledger.turn_key_self]
      exact hfresh.1
  · intro i hi
    rcases (Ledger.known_turn hother).1 hi with hi | rfl
    · rw [hkey i (hi.le hother)]
      exact List.mem_cons_of_mem _ (ht.generated i hi)
    · rw [Ledger.turn_key_self]
      exact List.mem_cons_self
  · intro i j hi hj h
    rcases (Ledger.known_turn hother).1 hi with hi | rfl <;>
      rcases (Ledger.known_turn hother).1 hj with hj | rfl
    · rw [hkey i (hi.le hother), hkey j (hj.le hother)] at h
      exact ht.key_inj i j hi hj h
    · rw [hkey i (hi.le hother), Ledger.turn_key_self] at h
      exact absurd h (hnew i hi)
    · rw [hkey j (hj.le hother), Ledger.turn_key_self] at h
      exact absurd h.symm (hnew j hj)
    · rfl
  · intro j hj
    rw [Ledger.known_turn hother, not_or] at hj
    exact ht.sent_beyond j hj.1
  · intro y
    rcases x.eq_or_eq_other y with rfl | rfl
    · dsimp only
      rw [Function.update_self, Ledger.turn_epoch_self]
      have hroot : rootAt P L.secret (L.turn y fresh).key (L.epoch y) = (s.party y).rootKey := by
        rw [hp.rootKey]
        exact rootAt_congr P fun i hi => hkey i (by omega)
      -- Both sides derive the same roots: the pairs agree on the DH outputs.
      have hdh : agreed P (L.key (L.epoch y + 1)).privateKey fresh.publicKey =
          agreed P fresh.privateKey (L.key (L.epoch y + 1)).publicKey :=
        agreed_comm hP (ht.proper _ hknown) hfresh.1
      have hself := hkey (L.epoch y) (by omega)
      have hnext := hkey (L.epoch y + 1) (Nat.le_refl _)
      refine ⟨Ledger.turn_key_self.symm, ?_, ?_, ?_, ?_, ?_, hp.sendCounter, Nat.zero_le _⟩
      · have hpred : L.epoch y + 2 - 1 = L.epoch y + 1 := rfl
        rw [if_neg (by omega), hpred, hnext]
        rfl
      · show _ = rootAt P L.secret (L.turn y fresh).key (L.epoch y + 2)
        rw [rootAt, rootAt, hroot, Ledger.turn_key_self, hself, hnext, hdh, RatchetState.turned,
          hp.dhSelf]
      · show _ = if _ then _ else some (chainAt P
          (chainKeyAt P L.secret (L.turn y fresh).key (L.epoch y + 2)) (L.sent (L.epoch y + 2)))
        rw [if_neg (by omega), ht.sent_beyond, chainAt_zero, chainKeyAt, rootAt, hroot,
          Ledger.turn_key_self, hself, hnext, hdh, RatchetState.turned, hp.dhSelf]
        exact fun h => by have := h.le hother; omega
      · show _ = if _ then _ else some (chainAt P
          (chainKeyAt P L.secret (L.turn y fresh).key (L.epoch y + 1)) 0)
        rw [if_neg (by omega), chainAt_zero, chainKeyAt, hroot, hself, hnext, RatchetState.turned,
          hp.dhSelf]
      · show 0 = L.sent (L.epoch y + 2)
        exact (ht.sent_beyond _ fun h => by have := h.le hother; omega).symm
    · dsimp only
      rw [Function.update_of_ne x.other_ne, Ledger.turn_epoch_other]
      exact (ht.party x.other).congr (by rfl) (fun i hi => hkey i (by omega)) rfl rfl
        (Nat.le_refl _)
  · intro y b c mk hmk
    have hold : ∃ j, L.Known j ∧ b = L.bucket j ∧ mk = L.messageKey P j c := by
      rcases x.eq_or_eq_other y with rfl | rfl
      · dsimp only at hmk
        rw [Function.update_self] at hmk
        exact ht.stored y b c mk hmk
      · dsimp only at hmk
        rw [Function.update_of_ne x.other_ne] at hmk
        exact ht.stored _ b c mk hmk
    obtain ⟨j, hj, hb, hmk⟩ := hold
    exact ⟨j, (Ledger.known_turn hother).2 (.inl hj), by rw [hbucket hj, hb],
      by rw [hmessageKey hj, hmk]⟩
  · intro f hf
    obtain ⟨j, c, hc, ha⟩ := ht.flights f hf
    have hj : L.Known j := ⟨_, hc.le⟩
    refine ⟨j, c, hc.turn hother, ?_⟩
    dsimp only
    rcases x.eq_or_eq_other f.receiver with hx | hx
    · rw [hx] at ha
      rw [hx, Function.update_self, Ledger.turn_epoch_self]
      rcases hleft f hf hx j c hc ha with h | h
      · exact .inr (.inl ⟨by omega, Nat.zero_le _⟩)
      · exact .inr (.inr (by rw [hbucket hj, hmessageKey hj, ← h]; rfl))
    · rw [hx] at ha
      rw [hx, Function.update_of_ne x.other_ne, Ledger.turn_epoch_other]
      exact ha.congr (by rfl) fun i hi => hkey i (Nat.le_trans hi (hj.le hother))

end

/-- Caching what is left of the receive chain, up to the length of the chain: every
    message of it in flight has its key skipped. -/
theorem Tracked.cacheLeft {s : Conversation} {L : Ledger} (ht : Tracked P s L) {x : Side}
    (he : 2 ≤ L.epoch x) :
    (∃ e state', cacheSkipped P (s.party x) (L.key (L.epoch x - 1)).publicKey
        (L.sent (L.epoch x - 1)) = (.error e, state') ∧ e.IsLimit) ∨
      ∃ cached, cacheSkipped P (s.party x) (L.key (L.epoch x - 1)).publicKey
          (L.sent (L.epoch x - 1)) = (.ok (), cached) ∧
        cached = { s.party x with
          recvChain := cached.recvChain
          recvCounter := cached.recvCounter
          skipped := cached.skipped } ∧
        Tracked P ⟨Function.update s.party x { s.party x with skipped := cached.skipped },
          s.inFlight, s.generated⟩ L ∧
        ∀ f ∈ s.inFlight, f.receiver = x → ∀ j c, f.Carries P L j c →
          Awaited P L (L.epoch x) (s.party x) j c → j = L.epoch x + 1 ∨
            storedKey cached.skipped (L.bucket j) c = some (L.messageKey P j c) := by
  have hp := ht.party x
  have hchain := hp.recvChain
  rw [if_neg (by omega)] at hchain
  have hknown : L.Known (L.epoch x - 1) := ⟨x, Nat.sub_le _ _⟩
  refine (cacheSkipped_cases _ _ hchain).imp id ?_
  rintro ⟨cached, hcache, heq, hkeys⟩
  -- A message in flight of the chain left behind is past the counter.
  have hleft : ∀ f ∈ s.inFlight, f.receiver = x → ∀ j c, f.Carries P L j c →
      Awaited P L (L.epoch x) (s.party x) j c → j = L.epoch x + 1 ∨
        storedKey cached.skipped (L.bucket j) c = some (L.messageKey P j c) := by
    intro f _ _ j c hc ha
    rcases ha with ha | ⟨ha, hca⟩ | ha
    · exact .inl ha
    · have hj : j = L.epoch x - 1 := by omega
      subst hj
      exact .inr (by rw [hkeys, if_pos ⟨rfl, hca, hc.lt⟩]; rfl)
    · refine .inr ?_
      rw [hkeys]
      split_ifs with hnew
      · rw [ht.bucket_inj ⟨_, hc.le⟩ hknown hnew.1]
        rfl
      · exact ha
  refine ⟨cached, hcache, by rw [heq], ?_, hleft⟩
  refine ht.receive ?_ (fun b c mk hmk => ?_) (List.Sublist.refl _) (fun _ h => h)
    fun f hf hx j c hc ha => ?_
  · exact ⟨hp.dhSelf, hp.dhRemote, hp.rootKey, hp.sendChain, hp.recvChain, hp.sendCounter,
      hp.prevSendCounter, hp.recvCounter_le⟩
  · dsimp only at hmk
    rw [hkeys] at hmk
    split_ifs at hmk with hnew
    · exact ⟨_, hknown, hnew.1, (Option.some.inj hmk).symm⟩
    · exact ht.stored _ b c mk hmk
  · exact (hleft f hf hx j c hc ha).imp id .inr

/-- A message of the next chain makes its receiver turn to it. -/
theorem Tracked.turnTo {s : Conversation} {L : Ledger} (ht : Tracked P s L) (hP : P.Ideal)
    {f : Flight} {j c : ℕ} (hc : f.Carries P L j c)
    (hj : j = L.epoch f.receiver + 1) {fresh : KeyPair} (hfresh : s.Fresh P fresh) :
    (∃ e state', turnTo P fresh (s.party f.receiver) f.message.header = (.error e, state') ∧
        e.IsLimit) ∨
      ∃ state', turnTo P fresh (s.party f.receiver) f.message.header = (.ok (), state') ∧
        state'.recvCounter = 0 ∧
        Tracked P ⟨Function.update s.party f.receiver state', s.inFlight,
          fresh.publicKey :: s.generated⟩ (L.turn f.receiver fresh) := by
  have hp := ht.party f.receiver
  have hother : L.epoch f.receiver.other = L.epoch f.receiver + 1 := by
    have := hc.le
    have := ht.adjacent f.receiver
    omega
  have hpub : f.message.header.dhPub = (L.key (L.epoch f.receiver + 1)).publicKey := by
    rw [hc.header, Ledger.header, hj]
  have hlength : f.message.header.previousChainLength = L.sent (L.epoch f.receiver - 1) := by
    rw [hc.header, Ledger.header, hj]
    rfl
  have hstep : ∀ state : RatchetState,
      dhRatchetStep P fresh state (L.key (L.epoch f.receiver + 1)).publicKey =
        (.ok (), state.turned P fresh (L.key (L.epoch f.receiver + 1)).publicKey) := fun state =>
    dhRatchetStep_proper hP fresh state (ht.proper _ ⟨_, Nat.le_of_eq hother.symm⟩)
  unfold Ratchet.turnTo
  rw [hpub, hlength, hp.dhRemote]
  rcases Nat.eq_zero_or_pos (L.epoch f.receiver) with he | he
  · -- Bob's first message: there is no chain to leave behind.
    refine .inr ⟨_, by rw [if_pos he, if_neg (by simp)]; exact hstep _, rfl, ?_⟩
    refine ht.turn hother hP hfresh fun g _ _ j' c' hgc ha => ?_
    exact ha.imp id fun h => h.resolve_left (by omega)
  have hne : ¬ some (L.key (L.epoch f.receiver - 1)).publicKey =
      some (L.key (L.epoch f.receiver + 1)).publicKey := fun h => by
    have := ht.key_inj _ _ ⟨f.receiver, Nat.sub_le _ _⟩ ⟨_, Nat.le_of_eq hother.symm⟩
      (Option.some.inj h)
    omega
  have he₀ : ¬ L.epoch f.receiver = 0 := by omega
  rw [if_neg he₀, if_neg hne]
  dsimp only
  by_cases he' : L.epoch f.receiver = 1
  · -- Alice's first: the chain left behind is that of the published key, which sends nothing.
    rw [cacheSkipped_none _ _ (by rw [hp.recvChain, if_pos (by omega)])]
    refine .inr ⟨_, hstep _, rfl, ht.turn hother hP hfresh fun g _ _ j' c' hgc ha => ?_⟩
    have := hgc.pos ht
    exact ha.imp id fun h => h.resolve_left (by omega)
  rcases ht.cacheLeft (x := f.receiver) (by omega) with ⟨e, state', h, hlim⟩ | h
  · exact .inl ⟨e, state', by rw [h], hlim⟩
  · obtain ⟨cached, hcache, heq, hcached, hleft⟩ := h
    refine .inr ⟨_, by rw [hcache]; exact hstep cached, rfl, ?_⟩
    have hturn := hcached.turn (x := f.receiver) hother hP hfresh
    simp only [Function.update_self, Function.update_idem] at hturn
    have hcached : cached.turned P fresh (L.key (L.epoch f.receiver + 1)).publicKey =
        { s.party f.receiver with skipped := cached.skipped }.turned P fresh
          (L.key (L.epoch f.receiver + 1)).publicKey := by
      rw [heq]
      rfl
    rw [hcached]
    refine hturn fun g hg hx j' c' hgc ha => ?_
    rcases ha with ha | ha | ha
    · exact .inl ha
    · exact hleft g hg hx j' c' hgc (.inr (.inl ha))
    · exact .inr ha

/-! ### Deliveries -/

/-- What is left of `takeMessageKey` once the receiver is on the chain of the message. -/
theorem takeMessageKey_eq {fresh : KeyPair} {state turned cached : RatchetState}
    {header : RatchetHeader} {chain : Bytes}
    (hturn : Ratchet.turnTo P fresh state header = (.ok (), turned))
    (hcache : cacheSkipped P turned header.dhPub header.counter = (.ok (), cached))
    (hchain : cached.recvChain = some chain) :
    takeMessageKey P fresh state header = (.ok (kdfMessageKey P chain).messageKey,
      { cached with
        recvChain := some (kdfMessageKey P chain).nextChainKey
        recvCounter := cached.recvCounter + 1 }) := by
  simp only [takeMessageKey, hturn, hcache, hchain]

theorem takeMessageKey_turn_error {fresh : KeyPair} {state state' : RatchetState}
    {header : RatchetHeader} {e : RatchetError}
    (hturn : Ratchet.turnTo P fresh state header = (.error e, state')) :
    takeMessageKey P fresh state header = (.error e, state') := by
  simp only [takeMessageKey, hturn]

theorem takeMessageKey_cache_error {fresh : KeyPair} {state turned state' : RatchetState}
    {header : RatchetHeader} {e : RatchetError}
    (hturn : Ratchet.turnTo P fresh state header = (.ok (), turned))
    (hcache : cacheSkipped P turned header.dhPub header.counter = (.error e, state')) :
    takeMessageKey P fresh state header = (.error e, state') := by
  simp only [takeMessageKey, hturn, hcache]

/-- Once its receiver has turned to its chain, the key of a message in flight is taken. -/
theorem Tracked.takeTurned {s : Conversation} {L : Ledger} {i : ℕ} {f : Flight}
    (hf : s.inFlight[i]? = some f) {fresh : KeyPair} {turned : RatchetState}
    {generated : List Bytes}
    (hturn : Ratchet.turnTo P fresh (s.party f.receiver) f.message.header = (.ok (), turned))
    (ht : Tracked P ⟨Function.update s.party f.receiver turned, s.inFlight, generated⟩ L)
    {j c : ℕ} (hc : f.Carries P L j c) (hj : j + 1 = L.epoch f.receiver)
    (hle : turned.recvCounter ≤ c) :
    (∃ e state', takeMessageKey P fresh (s.party f.receiver) f.message.header =
        (.error e, state') ∧ e.IsLimit) ∨
      ∃ state', takeMessageKey P fresh (s.party f.receiver) f.message.header =
          (.ok (L.messageKey P j c), state') ∧
        Tracked P ⟨Function.update s.party f.receiver state', s.inFlight.eraseIdx i,
          generated⟩ L := by
  have hpub : (L.key j).publicKey = f.message.header.dhPub := by rw [hc.header]; rfl
  have hcount : c = f.message.header.counter := by rw [hc.header]; rfl
  have htake := ht.take hf hc hj (by simpa using hle)
  simp only [Function.update_self, Function.update_idem] at htake
  rw [hpub, hcount] at htake
  rcases htake with ⟨e, state', h, hlim⟩ | ⟨cached, hcache, hchain, hrecv, htake⟩
  · exact .inl ⟨e, state', takeMessageKey_cache_error hturn h, hlim⟩
  · refine .inr ⟨_, ?_, htake⟩
    rw [takeMessageKey_eq hturn hcache hchain, takeKey, hrecv, hcount]
    rfl

/-- The key of a message in flight that was not skipped is taken from its chain. -/
theorem Tracked.takeMessageKey {s : Conversation} {L : Ledger} (ht : Tracked P s L)
    (hP : P.Ideal) {i : ℕ} {f : Flight} (hf : s.inFlight[i]? = some f) {j c : ℕ}
    (hc : f.Carries P L j c)
    (ha : j = L.epoch f.receiver + 1 ∨
      (j + 1 = L.epoch f.receiver ∧ (s.party f.receiver).recvCounter ≤ c))
    {fresh : KeyPair} (hfresh : s.Fresh P fresh) :
    (∃ e state', takeMessageKey P fresh (s.party f.receiver) f.message.header =
        (.error e, state') ∧ e.IsLimit) ∨
      ∃ state' L', takeMessageKey P fresh (s.party f.receiver) f.message.header =
          (.ok (L.messageKey P j c), state') ∧
        Tracked P ⟨Function.update s.party f.receiver state', s.inFlight.eraseIdx i,
          fresh.publicKey :: s.generated⟩ L' := by
  rcases ha with hj | ⟨hj, hle⟩
  · -- The receiver turns to the chain, and starts it.
    have hother : L.epoch f.receiver.other = L.epoch f.receiver + 1 := by
      have := hc.le
      have := ht.adjacent f.receiver
      omega
    rcases ht.turnTo hP hc hj hfresh with
      ⟨e, state', h, hlim⟩ | ⟨turned, hturn, hzero, ht'⟩
    · exact .inl ⟨e, state', takeMessageKey_turn_error h, hlim⟩
    · have hkey : (L.turn f.receiver fresh).messageKey P j c = L.messageKey P j c :=
        Ledger.messageKey_congr (by rfl) (fun i hi => Ledger.turn_key (by omega)) c
      have hnext : j + 1 = (L.turn f.receiver fresh).epoch f.receiver := by
        rw [Ledger.turn_epoch_self, hj]
      rw [← hkey]
      exact (Tracked.takeTurned hf hturn ht' (hc.turn hother) hnext
        (by rw [hzero]; exact Nat.zero_le c)).imp id
        fun ⟨state', h, ht'⟩ => ⟨state', _, h, ht'⟩
  · -- The receiver is on the chain.
    have hturn : Ratchet.turnTo P fresh (s.party f.receiver) f.message.header =
        (.ok (), s.party f.receiver) := by
      have hpred : L.epoch f.receiver - 1 = j := by omega
      rw [Ratchet.turnTo, if_pos]
      rw [(ht.party f.receiver).dhRemote, if_neg (by omega), hpred, hc.header, Ledger.header]
    have ht' := ht.receive (ht.party f.receiver) (ht.stored f.receiver) (List.Sublist.refl _)
      (fun _ h => List.mem_cons_of_mem fresh.publicKey h) fun _ _ _ _ _ _ ha => ha
    exact (Tracked.takeTurned hf hturn ht' hc hj hle).imp id
      fun ⟨state', h, ht'⟩ => ⟨state', _, h, ht'⟩

/-- Every delivery within the limits decrypts to what was sent. -/
theorem Tracked.deliver {s : Conversation} {L : Ledger} (ht : Tracked P s L) (hP : P.Ideal)
    {i : ℕ} {f : Flight} (hf : s.inFlight[i]? = some f) {fresh : KeyPair}
    (hfresh : s.Fresh P fresh) (hw : (s.party f.receiver).WithinLimits f.message.header) :
    (s.receive P f fresh).1 = .ok f.plaintext ∧
      ∃ L', Tracked P ⟨Function.update s.party f.receiver (s.receive P f fresh).2,
        s.inFlight.eraseIdx i, fresh.publicKey :: s.generated⟩ L' := by
  obtain ⟨j, c, hc, ha⟩ := ht.flights f (List.mem_of_getElem? hf)
  have hopen : openWith P (L.messageKey P j c) f.message.ciphertext
      (f.associatedData ++ headerAad f.message.header) = some f.plaintext := by
    rw [hc.ciphertext, openWith_sealWith hP]
  have hpub : f.message.header.dhPub = (L.key j).publicKey := by rw [hc.header]; rfl
  have hcount : f.message.header.counter = c := by rw [hc.header]; rfl
  have hlimit : ∀ e state', s.receive P f fresh = (.error e, state') → ¬ e.IsLimit :=
    fun _ _ h => not_isLimit_of_withinLimits hw h
  unfold Conversation.receive decryptRatchet tryDecryptSkipped at hlimit ⊢
  cases hkey : (s.party f.receiver).skippedKey f.message.header.dhPub f.message.header.counter with
  | some mk =>
    -- The stored key is that of the message.
    have hmk : mk = L.messageKey P j c := by
      rw [skippedKey_eq, hcount, hpub] at hkey
      obtain ⟨j', hj', hb, rfl⟩ := ht.stored _ _ _ _ hkey
      rw [ht.bucket_inj hj' ⟨_, hc.le⟩ hb.symm]
    simp only [hmk, hopen]
    rw [hpub, hcount]
    exact ⟨trivial, L, ht.dropSkipped hf hc fun _ h => List.mem_cons_of_mem _ h⟩
  | none =>
    have ha' : j = L.epoch f.receiver + 1 ∨
        (j + 1 = L.epoch f.receiver ∧ (s.party f.receiver).recvCounter ≤ c) := by
      rcases ha with ha | ha | ha
      · exact .inl ha
      · exact .inr ha
      · rw [skippedKey_eq, hcount, hpub] at hkey
        exact absurd (ha.symm.trans hkey) (by simp)
    rcases ht.takeMessageKey hP hf hc ha' hfresh with
      ⟨e, state', h, hlim⟩ | ⟨state', L', h, ht'⟩
    · refine absurd hlim (hlimit _ state' ?_)
      simp only [hkey, h]
    · simp only [h, hopen]
      exact ⟨trivial, L', ht'⟩

/-- The start of a session has a history: the published key, then that of Alice. -/
theorem tracked_start (hP : P.Ideal) {secret : Bytes} {selfDh fresh : KeyPair}
    {maxSkipAlice maxSkipBob : Option ℕ} (hself : selfDh.Proper P) (hfresh : fresh.Proper P)
    (hne : fresh.publicKey ≠ selfDh.publicKey) {s : Conversation}
    (hs : some s = Conversation.start P secret selfDh fresh maxSkipAlice maxSkipBob) :
    Tracked P s
      { secret
        key := fun i => if i = 0 then selfDh else fresh
        sent := fun _ => 0
        epoch := fun | .alice => 1 | .bob => 0 } := by
  obtain ⟨dhOut, hdh⟩ := dh_accepts hP fresh.privateKey hself
  simp only [Conversation.start, initRatchetAsAlice, hdh, Option.map_some, Option.some.injEq] at hs
  subst hs
  have hagreed : dhOut = agreed P selfDh.privateKey fresh.publicKey := by
    rw [agreed_comm hP hself hfresh, agreed, hdh, Option.getD_some]
  refine ⟨?_, ?_, ?_, ?_, rfl, fun _ _ => rfl, ?_, ?_, ?_, List.nodup_nil⟩
  · intro x
    cases x <;> simp [Side.other]
  · intro i _
    dsimp only
    split_ifs
    exacts [hself, hfresh]
  · intro i _
    by_cases h : i = 0 <;> simp [h]
  · intro i j hi hj h
    simp only [Ledger.known_iff .alice, Side.other] at hi hj
    by_cases hi₀ : i = 0 <;> by_cases hj₀ : j = 0 <;> simp only [hi₀, hj₀, ↓reduceIte] at h
    · omega
    · exact absurd h.symm hne
    · exact absurd h hne
    · omega
  · intro x
    cases x with
    | alice =>
      refine ⟨rfl, rfl, ?_, ?_, rfl, rfl, rfl, Nat.le_refl _⟩ <;>
        simp [rootAt, chainKeyAt, hagreed]
    | bob => exact ⟨rfl, rfl, rfl, rfl, rfl, rfl, rfl, Nat.le_refl _⟩
  · intro x b c mk h
    cases x <;> exact absurd h (by simp [storedKey, initRatchetAsBob])
  · exact fun f hf => absurd hf List.not_mem_nil

/-- Every reachable conversation has a history. -/
theorem exists_tracked (hP : P.Ideal) {s : Conversation} (hs : (conversation P).Reachable s) :
    ∃ L, Tracked P s L := by
  induction hs with
  | init h =>
    obtain ⟨secret, selfDh, fresh, _, _, hself, hfresh, hne, hs⟩ := h
    exact ⟨_, tracked_start hP hself hfresh hne hs⟩
  | @step s s' e _ he ih =>
    obtain ⟨L, ht⟩ := ih
    cases e with
    | send x plaintext ad =>
      simp only [conversation] at he
      split at he
      · simp at he
      · rename_i henc
        obtain rfl := Option.some.inj he
        exact ht.send henc
    | deliver i fresh =>
      simp only [conversation] at he
      split at he
      · simp at he
      · rename_i f hf
        split_ifs at he with h
        obtain rfl := Option.some.inj he
        exact (ht.deliver hP hf h.1 h.2).2

/-- Whatever the two sides sent, and in whatever order their messages were delivered so
    far, a message in flight decrypts to what was sent, if its delivery keeps within the
    limits of its receiver. -/
theorem receive_eq_plaintext (hP : P.Ideal) {s : Conversation} (hs : (conversation P).Reachable s)
    {i : ℕ} {f : Flight} (hf : s.inFlight[i]? = some f) {fresh : KeyPair}
    (hfresh : s.Fresh P fresh) (hw : (s.party f.receiver).WithinLimits f.message.header) :
    (s.receive P f fresh).1 = .ok f.plaintext := by
  obtain ⟨L, ht⟩ := exists_tracked hP hs
  exact (ht.deliver hP hf hfresh hw).1

/-! ### A late message -/

/-- Primitives that behave ideally, with keys of one byte. -/
def samplePrimitives : Primitives where
  getPublicKey a := a
  getSharedSecret a b := some (List.zipWith (· + ·) a b)
  hkdf ikm salt _ n := (ikm ++ salt ++ List.replicate n 0).take n
  hmac key message := message ++ key
  gcmEncrypt key iv aad pt := key ++ iv ++ aad ++ pt
  gcmDecrypt key iv aad ct :=
    if (key ++ iv ++ aad).isPrefixOf ct then some (ct.drop (key ++ iv ++ aad).length) else none

theorem samplePrimitives_ideal : samplePrimitives.Ideal where
  dh_accepts _ _ := ⟨_, rfl⟩
  dh_comm a b := congrArg some (List.zipWith_comm_of_comm (fun x y => UInt8.add_comm x y) ..)
  decrypt_encrypt key iv aad pt := by simp [samplePrimitives]

def samplePair (n : UInt8) : KeyPair := ⟨[n], [n]⟩

/-- The first of two messages is overtaken by the second, by an answer, and by an answer
    to that: two DH ratchet steps of Bob. -/
def lateEvents : List ConversationEvent :=
  [.send .alice [1] [], .send .alice [2] [], .deliver 1 (samplePair 3), .send .bob [3] [],
    .deliver 1 (samplePair 4), .send .alice [4] [], .deliver 1 (samplePair 5)]

def sampleStart : Conversation :=
  (Conversation.start samplePrimitives [7] (samplePair 1) (samplePair 2) none none).get rfl

def lateConversation : Conversation :=
  ((conversation samplePrimitives).run sampleStart lateEvents).getD sampleStart

theorem lateConversation_run :
    (conversation samplePrimitives).run sampleStart lateEvents = some lateConversation := by
  have hsome : ((conversation samplePrimitives).run sampleStart lateEvents).isSome = true := by
    decide +kernel
  rw [lateConversation]
  generalize (conversation samplePrimitives).run sampleStart lateEvents = r at hsome ⊢
  cases r with
  | none => exact absurd hsome (by simp)
  | some s => rfl

theorem lateConversation_reachable : (conversation samplePrimitives).Reachable lateConversation :=
  Machine.Reachable.run (.init ⟨_, _, _, _, _, by rfl, by rfl, by decide, rfl⟩) lateConversation_run

/-- The message that was overtaken. -/
def lateMessage : Flight := lateConversation.inFlight.get ⟨0, by decide +kernel⟩

theorem receive_eq_plaintext_late : lateMessage.plaintext = [1] ∧
    (lateConversation.receive samplePrimitives lateMessage (samplePair 6)).1 =
      .ok lateMessage.plaintext :=
  ⟨by decide +kernel,
    receive_eq_plaintext samplePrimitives_ideal lateConversation_reachable
      (i := 0) (List.getElem?_eq_getElem _) (by decide +kernel) (by decide +kernel)⟩

end OneToThree.Ratchet
