import OneToThree.Messages.BatchRows

/-!
# Rows read in a batch and rows read one by one

The batch of a group and the reader of a single row differ: the batch takes polls and notices,
which are plain text, and envelopes of the Double Ratchet for ciphertexts of the group; a
single row is blank unless the slot or the row has a ciphertext with an iv of its own, while the
batch takes the one from the slot and the other from the row; and without a key, the batch is blank
where a single row shows a failure.

* `decryptApiMessageRows_eq_iff`: a batch shows what its rows show one by one, for all keys and
  ratchets, if and only if each of its rows is none of these (`Agrees`);
* `poll_in_group`: the poll of a group, which is shown as a failure when the chat is opened.
-/

namespace OneToThree.Messages

variable {N : Type} [JsNumber N] [DecidableEq N]

/-! ## The texts of a row -/

section
variable {rt : Runtime N} {L : List (InFlight rt)} {cryptoCtx : ChatCryptoContext}
  {m : ApiMessageRow} {drCtx : Option DrContext} {hints : DecryptHints} {c iv : String}

/-- The text that is shown of a row that is read on its own. -/
def rowText (L : List (InFlight rt)) (cryptoCtx : ChatCryptoContext) (m : ApiMessageRow)
    (drCtx : Option DrContext) (hints : DecryptHints) : String :=
  if m.hasPair then shown (decryptRowPlaintext L cryptoCtx m drCtx hints) else ""

theorem decryptRow_eq : decryptRow L cryptoCtx m drCtx hints =
    apiRowToDecrypted rt m (shown (decryptRowPlaintext L cryptoCtx m drCtx hints)) := by
  rw [decryptRow]
  cases decryptRowPlaintext L cryptoCtx m drCtx hints <;> rfl

theorem decryptApiMessageRow_eq : decryptApiMessageRow L cryptoCtx m drCtx hints =
    apiRowToDecrypted rt m (rowText L cryptoCtx m drCtx hints) := by
  rw [decryptApiMessageRow, rowText]
  split_ifs
  · exact decryptRow_eq
  · rfl

omit [JsNumber N] [DecidableEq N] in
theorem apiRowToDecrypted_inj {p p' : String}
    (h : apiRowToDecrypted rt m p = apiRowToDecrypted rt m p') : p = p' :=
  congrArg DecryptedMessage.plaintext h

theorem sharedJob_eq_some (h : sharedJob m = some (c, iv)) :
    m.ciphertext = some c ∧ m.effectiveIv = some iv ∧ c ≠ "" := by
  rw [sharedJob] at h
  split at h
  · split_ifs at h
    cases h
    exact ⟨‹_›, ‹_›, ‹_›⟩
  · cases h

theorem decryptRowPlaintext_of_none (h : sharedJob m = none) :
    decryptRowPlaintext L cryptoCtx m drCtx hints = .ok "" := by
  rw [sharedJob] at h
  rw [decryptRowPlaintext]
  cases hc : m.ciphertext with
  | none => rfl
  | some c =>
    cases hiv : m.effectiveIv with
    | none => rfl
    | some iv =>
      rw [hc, hiv] at h
      by_cases hempty : c = ""
      · exact if_pos hempty
      · exact absurd h (by simp [hempty])

/-- What the iv of a row with a ciphertext says of it. -/
inductive Reads (L : List (InFlight rt)) (cryptoCtx : ChatCryptoContext) (m : ApiMessageRow)
    (drCtx : Option DrContext) (hints : DecryptHints) (c iv : String) : Except String String → Prop
  | plain (h : iv ∈ sentinels) : Reads L cryptoCtx m drCtx hints c iv (.ok c)
  | ratchet (ctx : DrContext) (hctx : drCtx = some ctx) (hv : m.protocol_version = some 2)
      (hiv : iv = DR_SLOT_SENTINEL) :
      Reads L cryptoCtx m drCtx hints c iv (decryptDrRow L m ctx c)
  | unresolved (hctx : drCtx = none) (hv : m.protocol_version = some 2)
      (hiv : iv = DR_SLOT_SENTINEL) :
      Reads L cryptoCtx m drCtx hints c iv (.error "ERR_DR_PEER_UNRESOLVED")
  | legacy (hiv : iv ∉ sentinels) (hdr : ¬(m.protocol_version = some 2 ∧ iv = DR_SLOT_SENTINEL)) :
      Reads L cryptoCtx m drCtx hints c iv (decryptLegacyRow rt cryptoCtx m hints c iv)

theorem decryptRowPlaintext_reads (h : sharedJob m = some (c, iv)) :
    Reads L cryptoCtx m drCtx hints c iv (decryptRowPlaintext L cryptoCtx m drCtx hints) := by
  obtain ⟨hc, hiv, hne⟩ := sharedJob_eq_some h
  rw [decryptRowPlaintext, hc, hiv]
  dsimp only
  rw [if_neg hne]
  split_ifs with hpoll hsystem hdr
  · exact .plain (by simp [sentinels, hpoll])
  · exact .plain (by simp [sentinels, hsystem])
  · cases hctx : drCtx with
    | some ctx => exact .ratchet ctx rfl hdr.1 hdr.2
    | none => exact .unresolved rfl hdr.1 hdr.2
  · exact .legacy (by simp [sentinels, hpoll, hsystem]) hdr

theorem decryptRowPlaintext_plain (h : sharedJob m = some (c, iv)) (hiv : iv ∈ sentinels) :
    decryptRowPlaintext L cryptoCtx m drCtx hints = .ok c := by
  have hreads : Reads L cryptoCtx m drCtx hints c iv _ := decryptRowPlaintext_reads h
  generalize decryptRowPlaintext L cryptoCtx m drCtx hints = result at hreads
  cases hreads with
  | plain => rfl
  | ratchet _ _ _ hdr | unresolved _ _ hdr => exact absurd (hdr ▸ hiv) (by decide)
  | legacy hlegacy => exact absurd hiv hlegacy

variable (L cryptoCtx drCtx hints) in
theorem decryptRowPlaintext_dr (h : sharedJob m = some (c, iv)) (hv : m.protocol_version = some 2)
    (hiv : iv = DR_SLOT_SENTINEL) : (∃ ctx, drCtx = some ctx ∧
      decryptRowPlaintext L cryptoCtx m drCtx hints = decryptDrRow L m ctx c) ∨
    drCtx = none ∧ ∃ e, decryptRowPlaintext L cryptoCtx m drCtx hints = .error e := by
  have hreads : Reads L cryptoCtx m drCtx hints c iv _ := decryptRowPlaintext_reads h
  generalize decryptRowPlaintext L cryptoCtx m drCtx hints = result at hreads
  cases hreads with
  | plain hplain => exact absurd (hiv ▸ hplain) (by decide)
  | ratchet ctx hctx => exact .inl ⟨ctx, hctx, rfl⟩
  | unresolved hctx => exact .inr ⟨hctx, _, rfl⟩
  | legacy _ hdr => exact absurd ⟨hv, hiv⟩ hdr

omit [JsNumber N] [DecidableEq N] in
theorem decryptLegacyRow_group (hgroup : cryptoCtx.isGroup) :
    decryptLegacyRow rt cryptoCtx m hints c iv = rt.decryptInboundText cryptoCtx c iv := by
  cases cryptoCtx with
  | DIRECT | SELF => cases hgroup
  | SECTOR | PUBLIC => rfl

/-! ## The batch -/

variable {crypto : Crypto N} {rt₀ : Runtime N} {rows : List ApiMessageRow}

/-- The text that the batch of a group shows of a row. -/
def batchText (crypto : Crypto N) (cryptoCtx : ChatCryptoContext) (m : ApiMessageRow) : String :=
  match sharedJob m with
  | some it => crypto.sharedText cryptoCtx it.1 it.2
  | none => ""

omit [JsNumber N] [DecidableEq N] in
theorem assignTexts_map :
    assignTexts rt rows ((rows.filterMap sharedJob).map fun it =>
      crypto.sharedText cryptoCtx it.1 it.2) =
    rows.map fun m => apiRowToDecrypted rt m (batchText crypto cryptoCtx m) := by
  induction rows with
  | nil => rfl
  | cons m rows ih =>
    rw [List.map_cons, ← ih]
    cases hjob : sharedJob m with
    | none =>
      rw [List.filterMap_cons_none hjob, assignTexts.eq_def, batchText]
      simp only [hjob]
    | some it =>
      rw [List.filterMap_cons_some hjob, List.map_cons, assignTexts.eq_def, batchText]
      simp only [hjob]

theorem decryptApiMessageRows_group (hgroup : cryptoCtx.isGroup)
    (L : List (InFlight (crypto.runtime rt₀))) :
    decryptApiMessageRows L cryptoCtx rows drCtx hints =
      rows.map fun m =>
        apiRowToDecrypted (crypto.runtime rt₀) m (batchText crypto cryptoCtx m) := by
  rw [← assignTexts_map, ← crypto.decryptShared_eq hgroup]
  cases cryptoCtx with
  | DIRECT | SELF => cases hgroup
  | SECTOR | PUBLIC => rfl

/-! ## Rows without a difference -/

/-- What the batch of a group shows of a ciphertext that no key opens. -/
def unopenedText : ChatCryptoContext → String → String
  | .PUBLIC, c => shown (decodePublic c)
  | .SECTOR _ [], _ => ""
  | _, _ => decryptFail

def ChatCryptoContext.hasKeys : ChatCryptoContext → Bool
  | .SECTOR _ [] => false
  | _ => true

/-- A row with a ciphertext has an iv beside it. In a group, it is then no plain text and no
    envelope of the Double Ratchet, unless it is shown all the same as the batch shows it, and a
    ciphertext without an iv of its own is blank. -/
def Agrees (rt : Runtime N) (cryptoCtx : ChatCryptoContext) (drCtx : Option DrContext)
    (m : ApiMessageRow) : Prop :=
  ∀ it ∈ sharedJob m,
    if cryptoCtx.isGroup then
      if m.hasPair then
        cryptoCtx.hasKeys ∧ (it.2 ∈ sentinels → unopenedText cryptoCtx it.1 = it.1) ∧
        (m.protocol_version = some 2 → it.2 = DR_SLOT_SENTINEL →
          unopenedText cryptoCtx it.1 = decryptFail ∧
            (drCtx.isSome → parseDrDeviceEnvelope rt it.1 = none))
      else unopenedText cryptoCtx it.1 = ""
    else m.hasPair

omit [JsNumber N] [DecidableEq N] in
theorem withKeys_sealed (h : ∀ k text, crypto.decryptMessage k c iv ≠ .ok text)
    (lastErr : String) (ring : List GroupKey) :
    ∃ e, crypto.decryptMessageWithKeys c iv lastErr ring = .error e := by
  induction ring generalizing lastErr with
  | nil => exact ⟨lastErr, rfl⟩
  | cons key ring ih =>
    rw [Crypto.decryptMessageWithKeys]
    cases hkey : crypto.decryptMessage key c iv with
    | error err => exact ih err
    | ok text => exact absurd hkey (h key text)

omit [JsNumber N] [DecidableEq N] in
theorem sharedText_sealed (hgroup : cryptoCtx.isGroup)
    (h : ∀ k text, crypto.decryptMessage k c iv ≠ .ok text) :
    crypto.sharedText cryptoCtx c iv = unopenedText cryptoCtx c := by
  cases cryptoCtx with
  | DIRECT | SELF => cases hgroup
  | PUBLIC => rfl
  | SECTOR chatId ring =>
    cases ring with
    | nil => rfl
    | cons key ring =>
      obtain ⟨e, he⟩ := withKeys_sealed h "ERR_NO_SECTOR_KEYS" (key :: ring)
      exact congrArg shown he

omit [JsNumber N] [DecidableEq N] in
/-- No key opens a ciphertext whose iv marks plain text or an envelope. -/
theorem sealed_of_mark (hiv : iv ∈ sentinels ∨ iv = DR_SLOT_SENTINEL) (k : GroupKey)
    (text : String) : crypto.decryptMessage k c iv ≠ .ok text := by
  intro h
  have hmark : ∀ iv ∈ DR_SLOT_SENTINEL :: sentinels, atob iv = none := by decide
  have hnone := hmark iv (List.mem_cons.2 hiv.symm)
  have hsome := (crypto.base64 k c iv text h).2
  rw [hnone] at hsome
  cases hsome

omit [JsNumber N] [DecidableEq N] in
theorem sharedText_hasKeys (hgroup : cryptoCtx.isGroup) (hkeys : cryptoCtx.hasKeys) :
    crypto.sharedText cryptoCtx c iv = shown (crypto.decryptInboundText cryptoCtx c iv) := by
  cases cryptoCtx with
  | DIRECT | SELF => cases hgroup
  | PUBLIC => rfl
  | SECTOR chatId ring =>
    cases ring with
    | nil => cases hkeys
    | cons key ring => rfl

/-- In a group, a row that agrees is shown as in the batch. -/
theorem Agrees.rowText_eq (h : Agrees rt₀ cryptoCtx drCtx m) (hgroup : cryptoCtx.isGroup)
    (L : List (InFlight (crypto.runtime rt₀))) :
    rowText L cryptoCtx m drCtx hints = batchText crypto cryptoCtx m := by
  rw [rowText, batchText]
  cases hjob : sharedJob m with
  | none => rw [decryptRowPlaintext_of_none hjob, shown, ite_self]
  | some it =>
    have hrow := h it hjob
    rw [if_pos hgroup] at hrow
    dsimp only
    split_ifs at hrow ⊢ with hpair
    · obtain ⟨hkeys, hplain, hdr⟩ := hrow
      have hreads : Reads L cryptoCtx m drCtx hints it.1 it.2 _ := decryptRowPlaintext_reads hjob
      generalize decryptRowPlaintext L cryptoCtx m drCtx hints = result at hreads
      cases hreads with
      | plain hiv =>
        rw [sharedText_sealed hgroup (sealed_of_mark (.inl hiv)), hplain hiv, shown]
      | ratchet ctx hctx hv hiv =>
        obtain ⟨hfail, hparse⟩ := hdr hv hiv
        have hnone : parseDrDeviceEnvelope (crypto.runtime rt₀) it.1 = none :=
          hparse (by rw [hctx, Option.isSome_some])
        rw [sharedText_sealed hgroup (sealed_of_mark (.inr hiv)), hfail, decryptDrRow, hnone, shown]
      | unresolved hctx hv hiv =>
        rw [sharedText_sealed hgroup (sealed_of_mark (.inr hiv)), (hdr hv hiv).1, shown]
      | legacy => rw [decryptLegacyRow_group hgroup, sharedText_hasKeys hgroup hkeys]; rfl
    · -- The batch makes nothing of a ciphertext that decodes to nothing.
      cases cryptoCtx with
      | DIRECT | SELF => cases hgroup
      | PUBLIC => exact hrow.symm
      | SECTOR chatId ring =>
        cases ring with
        | nil => rfl
        | cons key ring => exact absurd hrow (show decryptFail ≠ "" by decide)

/-! ## Calls in flight -/

/-- The same calls are in flight for every envelope. -/
def Alike (L L' : List (InFlight rt)) : Prop :=
  ∀ id deviceIv c, c ≠ "" → (parseDrDeviceEnvelope rt c).isSome →
    L.find? (·.key = inFlightKey id deviceIv c) = L'.find? (·.key = inFlightKey id deviceIv c)

variable {L' : List (InFlight rt)}

theorem decryptDrRow_alike (h : Alike L L') (hc : c ≠ "") (ctx : DrContext) :
    decryptDrRow L m ctx c = decryptDrRow L' m ctx c := by
  rw [decryptDrRow, decryptDrRow]
  cases hparse : parseDrDeviceEnvelope rt c with
  | none => rfl
  | some env =>
    dsimp only
    rw [shareInFlightDrDecrypt, shareInFlightDrDecrypt, h _ _ c hc (by rw [hparse]; rfl)]

theorem decryptRowPlaintext_alike (h : Alike L L') :
    decryptRowPlaintext L cryptoCtx m drCtx hints =
      decryptRowPlaintext L' cryptoCtx m drCtx hints := by
  rw [decryptRowPlaintext, decryptRowPlaintext]
  cases m.ciphertext with
  | none => rfl
  | some c =>
    cases m.effectiveIv with
    | none => rfl
    | some iv =>
      cases drCtx with
      | none => rfl
      | some ctx =>
        by_cases hc : c = ""
        · exact (if_pos hc).trans (if_pos hc).symm
        · simp only [decryptDrRow_alike h hc ctx]

variable (rt) in
/-- Reading a row publishes no call, or the one for its envelope. -/
theorem publish_cases (m : ApiMessageRow) (drCtx : Option DrContext) :
    (∀ L : List (InFlight rt), publish L m drCtx = L) ∨
      ∃ c env, ∃ hparse : parseDrDeviceEnvelope rt c = some env, ∃ ctx,
        (m.ciphertext = some c ∧ m.effectiveIv = some DR_SLOT_SENTINEL) ∧ ∀ L, publish L m drCtx =
          L ++ [⟨m.id, m.device_iv.getD "", c, env, hparse, decryptDrRow L m ctx c⟩] := by
  cases hc : m.ciphertext with
  | none => exact .inl fun L => by rw [publish.eq_def, hc]
  | some c =>
    cases drCtx with
    | none => exact .inl fun L => by rw [publish.eq_def, hc]
    | some ctx =>
      by_cases hdr : m.protocol_version = some 2 ∧ m.effectiveIv = some DR_SLOT_SENTINEL
      · cases hparse : parseDrDeviceEnvelope rt c with
        | none =>
          refine .inl fun L => ?_
          rw [publish.eq_def, hc]
          dsimp only
          rw [if_pos hdr]
          split
          · cases hparse.symm.trans ‹_›
          · rfl
        | some env =>
          refine .inr ⟨c, env, hparse, ctx, ⟨rfl, hdr.2⟩, fun L => ?_⟩
          rw [publish.eq_def, hc]
          dsimp only
          rw [if_pos hdr]
          split
          · cases hparse.symm.trans ‹_›
            rfl
          · cases hparse.symm.trans ‹_›
      · refine .inl fun L => ?_
        rw [publish.eq_def, hc]
        exact if_neg hdr

/-- The call for an empty text is joined by none for another. -/
theorem find?_of_empty {call : InFlight rt} (hcall : call.c = "") (id deviceIv : String)
    (hc : c ≠ "") (hparse : (parseDrDeviceEnvelope rt c).isSome) :
    [call].find? (·.key = inFlightKey id deviceIv c) = none := by
  obtain ⟨env, henv⟩ := Option.isSome_iff_exists.1 hparse
  refine List.find?_eq_none.2 fun x hx => ?_
  obtain rfl := List.mem_singleton.1 hx
  intro hkey
  have heq := inFlightKey_inj (closed_of_parsed x.parsed) (closed_of_parsed henv)
    (of_decide_eq_true hkey)
  exact hc (heq.symm.trans hcall)

theorem Alike.publish (h : Alike L L') (m : ApiMessageRow) (drCtx : Option DrContext) :
    Alike (publish L m drCtx) (publish L' m drCtx) := by
  rcases publish_cases rt m drCtx with hsame | ⟨c, env, hparse, ctx, -, hcall⟩
  · rwa [hsame, hsame]
  · intro id deviceIv c' hc' hparse'
    rw [hcall, hcall, List.find?_append, List.find?_append, h id deviceIv c' hc' hparse']
    by_cases hc : c = ""
    · rw [find?_of_empty hc id deviceIv hc' hparse', find?_of_empty hc id deviceIv hc' hparse']
    · rw [decryptDrRow_alike h hc ctx]

/-- A row without a ciphertext makes no call that another row joins. -/
theorem Alike.publish_of_none (h : Alike L L') (hjob : sharedJob m = none)
    (drCtx : Option DrContext) : Alike (Messages.publish L m drCtx) L' := by
  rcases publish_cases rt m drCtx with hsame | ⟨c, env, hparse, ctx, ⟨hc, hiv⟩, hcall⟩
  · rwa [hsame]
  · have hempty : c = "" := by
      rw [sharedJob, hc, hiv] at hjob
      by_contra hne
      exact absurd hjob (by simp [hne])
    intro id deviceIv c' hc' hparse'
    rw [hcall, List.find?_append, find?_of_empty hempty id deviceIv hc' hparse', Option.or_none]
    exact h id deviceIv c' hc' hparse'

/-! ## A chat of two -/

/-- In a chat of two, rows that agree are shown as they are one by one. -/
theorem decryptEachRow_eq (hgroup : cryptoCtx.isGroup = false)
    (hrows : ∀ m ∈ rows, Agrees rt cryptoCtx drCtx m) (h : Alike L L') :
    decryptEachRow cryptoCtx drCtx hints L rows =
      decryptRowByRow cryptoCtx drCtx hints L' rows := by
  induction rows generalizing L L' with
  | nil => rfl
  | cons m rows ih =>
    have hrest := fun m hm => hrows m (List.mem_cons_of_mem _ hm)
    rw [decryptEachRow, decryptRowByRow, decryptApiMessageRow]
    split_ifs with hpair
    · rw [decryptRow_eq, decryptRow_eq, decryptRowPlaintext_alike h, ih hrest (h.publish m drCtx)]
    · have hjob : sharedJob m = none := by
        cases hjob : sharedJob m with
        | none => rfl
        | some it =>
          have hagrees := hrows m List.mem_cons_self it hjob
          rw [hgroup] at hagrees
          exact absurd hagrees hpair
      rw [decryptRow_eq, decryptRowPlaintext_of_none hjob, shown,
        ih hrest (h.publish_of_none hjob drCtx)]

/-! ## Groups -/

theorem decryptRowByRow_group (hgroup : cryptoCtx.isGroup)
    (hrows : ∀ m ∈ rows, Agrees rt₀ cryptoCtx drCtx m) (L : List (InFlight (crypto.runtime rt₀))) :
    decryptRowByRow cryptoCtx drCtx hints L rows =
      rows.map fun m =>
        apiRowToDecrypted (crypto.runtime rt₀) m (batchText crypto cryptoCtx m) := by
  induction rows generalizing L with
  | nil => rfl
  | cons m rows ih =>
    rw [decryptRowByRow, List.map_cons, decryptApiMessageRow_eq,
      (hrows m List.mem_cons_self).rowText_eq hgroup,
      ih fun m hm => hrows m (List.mem_cons_of_mem _ hm)]

/-! ## Keys that open nothing -/

/-- Keys that open nothing, with a ratchet that always gives the same answer. -/
def stub (N : Type) (answer : Except String String) : Crypto N where
  decryptMessage _ _ _ := .error "OperationError"
  unique _ _ _ _ _ _ h := by cases h
  base64 _ _ _ _ h := by cases h
  decryptFromPeer _ _ _ := answer
  decryptFanoutSlot _ _ _ := .error "OperationError"
  decryptDerived _ _ _ := .error "OperationError"
  revokedByKeyChange _ _ := false
  hasWorker := false
  workerFails := false

variable {answer : Except String String} {C C' : List (InFlight ((stub N answer).runtime rt))}

/-- The calls in flight give the answer. -/
def Answers (C : List (InFlight ((stub N answer).runtime rt))) : Prop :=
  ∀ call ∈ C, call.result = answer

theorem Answers.decryptDrRow (h : Answers C) (hparse : (parseDrDeviceEnvelope rt c).isSome)
    (ctx : DrContext) : decryptDrRow C m ctx c = answer := by
  obtain ⟨env, henv⟩ := Option.isSome_iff_exists.1 hparse
  have henv' : parseDrDeviceEnvelope ((stub N answer).runtime rt) c = some env := henv
  rw [Messages.decryptDrRow, henv']
  dsimp only
  rw [shareInFlightDrDecrypt]
  split
  · exact h _ (List.mem_of_find?_eq_some ‹_›)
  · rfl

theorem Answers.publish (h : Answers C) (m : ApiMessageRow) (drCtx : Option DrContext) :
    Answers (publish C m drCtx) := by
  rcases publish_cases ((stub N answer).runtime rt) m drCtx with
    hsame | ⟨c, env, hparse, ctx, -, hcall⟩
  · rwa [hsame]
  · have hsome : (parseDrDeviceEnvelope rt c).isSome := Option.isSome_of_mem hparse
    rw [hcall]
    intro call hmem
    rcases List.mem_append.1 hmem with hmem | hmem
    · exact h call hmem
    · obtain rfl := List.mem_singleton.1 hmem
      exact h.decryptDrRow hsome ctx

omit [JsNumber N] [DecidableEq N] in
theorem firstDecrypt_fails {decrypt : String → Except String String}
    (h : ∀ k, ∃ e, decrypt k = .error e) (lastErr : Option String) (candidates : List String) :
    ∃ e, firstDecrypt decrypt lastErr candidates = .error e := by
  induction candidates generalizing lastErr with
  | nil => exact ⟨_, rfl⟩
  | cons key candidates ih =>
    obtain ⟨e, he⟩ := h key
    rw [firstDecrypt, he]
    exact ih (some e)

omit [JsNumber N] [DecidableEq N] in
/-- Without keys, only rows of public chats open. -/
theorem decryptLegacyRow_fails (hpublic : cryptoCtx ≠ .PUBLIC) :
    ∃ e, decryptLegacyRow ((stub N answer).runtime rt) cryptoCtx m hints c iv = .error e := by
  have hslot (k slot slotIv : String) :
      ∃ e, ((stub N answer).runtime rt).decryptFanoutSlot k slot slotIv = .error e := ⟨_, rfl⟩
  have hinbound : ∃ e,
      ((stub N answer).runtime rt).decryptInboundText cryptoCtx c iv = .error e := by
    cases cryptoCtx with
    | PUBLIC => exact absurd rfl hpublic
    | SECTOR => exact withKeys_sealed (fun _ _ h => by cases h) _ _
    | DIRECT | SELF => exact ⟨_, rfl⟩
  unfold decryptLegacyRow
  split
  · exact ⟨_, rfl⟩
  · exact firstDecrypt_fails (fun k => hslot k _ _) _ _
  · rw [decryptSelfSlot]
    split_ifs with hrevoked
    · cases hkey : truthyText m.sender_ecdh_public_key_jwk with
      | none => rw [hkey] at hrevoked; cases hrevoked
      | some key => rw [hkey] at hrevoked; cases hrevoked
    · exact firstDecrypt_fails (fun k => hslot k _ _) _ _
  · exact hinbound

/-- Without keys, and with ratchets that fail, no row with a ciphertext is blank. -/
theorem shown_ne_empty {e : String} {C : List (InFlight ((stub N (.error e)).runtime rt))}
    (hpublic : cryptoCtx ≠ .PUBLIC) (hjob : sharedJob m = some (c, iv)) (hC : Answers C) :
    shown (decryptRowPlaintext C cryptoCtx m drCtx hints) ≠ "" := by
  have hfail : decryptFail ≠ "" := by decide
  have hreads : Reads C cryptoCtx m drCtx hints c iv _ := decryptRowPlaintext_reads hjob
  generalize decryptRowPlaintext C cryptoCtx m drCtx hints = result at hreads
  cases hreads with
  | plain => exact (sharedJob_eq_some hjob).2.2
  | ratchet ctx =>
    cases hparse : parseDrDeviceEnvelope rt c with
    | none =>
      have hnone : parseDrDeviceEnvelope ((stub N (.error e)).runtime rt) c = none := hparse
      rw [decryptDrRow, hnone]
      exact hfail
    | some env =>
      rw [hC.decryptDrRow (by rw [hparse]; rfl)]
      exact hfail
  | unresolved => exact hfail
  | legacy =>
    have hlegacy : ∃ e', decryptLegacyRow ((stub N (.error e)).runtime rt) cryptoCtx m hints c iv =
        .error e' := decryptLegacyRow_fails hpublic
    obtain ⟨e', he'⟩ := hlegacy
    rw [he']
    exact hfail

/-- A row that is shown alike in the batch and on its own, while the same calls are in flight or
    others that give the same answer. -/
theorem exists_rowText
    (h : (rows.map fun m => apiRowToDecrypted ((stub N answer).runtime rt) m
        (batchText (stub N answer) cryptoCtx m)) =
      decryptRowByRow cryptoCtx drCtx hints C rows) (hC : Answers C) :
    ∀ m ∈ rows, ∃ C : List (InFlight ((stub N answer).runtime rt)), Answers C ∧
      batchText (stub N answer) cryptoCtx m = rowText C cryptoCtx m drCtx hints := by
  induction rows generalizing C with
  | nil => exact fun m hm => absurd hm List.not_mem_nil
  | cons m rows ih =>
    rw [List.map_cons, decryptRowByRow, decryptApiMessageRow_eq] at h
    obtain ⟨hhead, hrest⟩ := List.cons.inj h
    intro m' hm'
    rcases List.mem_cons.1 hm' with rfl | hm'
    · exact ⟨C, hC, apiRowToDecrypted_inj hhead⟩
    · refine ih hrest ?_ m' hm'
      split_ifs
      · exact hC.publish m drCtx
      · exact hC

theorem exists_rowText_each
    (h : decryptEachRow cryptoCtx drCtx hints C rows =
      decryptRowByRow cryptoCtx drCtx hints C' rows) (hC : Answers C) (hC' : Answers C') :
    ∀ m ∈ rows, ∃ C C' : List (InFlight ((stub N answer).runtime rt)), Answers C ∧ Answers C' ∧
      shown (decryptRowPlaintext C cryptoCtx m drCtx hints) =
        rowText C' cryptoCtx m drCtx hints := by
  induction rows generalizing C C' with
  | nil => exact fun m hm => absurd hm List.not_mem_nil
  | cons m rows ih =>
    rw [decryptEachRow, decryptRowByRow, decryptApiMessageRow_eq, decryptRow_eq] at h
    obtain ⟨hhead, hrest⟩ := List.cons.inj h
    intro m' hm'
    rcases List.mem_cons.1 hm' with rfl | hm'
    · exact ⟨C, C', hC, hC', apiRowToDecrypted_inj hhead⟩
    · refine ih hrest (hC.publish m drCtx) ?_ m' hm'
      split_ifs
      · exact hC'.publish m drCtx
      · exact hC'

/-! ## The batch and its rows -/

omit [JsNumber N] [DecidableEq N] in
theorem batchText_stub (hgroup : cryptoCtx.isGroup) (hjob : sharedJob m = some (c, iv)) :
    batchText (stub N answer) cryptoCtx m = unopenedText cryptoCtx c := by
  rw [batchText, hjob]
  exact sharedText_sealed hgroup fun _ _ h => by cases h

omit [JsNumber N] [DecidableEq N] in
/-- A group without keys shows nothing. -/
theorem unopenedText_hasKeys (hkeys : cryptoCtx.hasKeys = false) :
    (∀ c, unopenedText cryptoCtx c = "") ∧ cryptoCtx ≠ .PUBLIC := by
  cases cryptoCtx with
  | DIRECT | SELF | PUBLIC => cases hkeys
  | SECTOR chatId ring =>
    cases ring with
    | nil => exact ⟨fun _ => rfl, by simp⟩
    | cons key ring => cases hkeys

variable (hints) in
/-- If a batch shows the same as its rows one by one while no key opens anything, whatever the
    ratchets give, the rows are of the kinds that agree. -/
theorem agrees_of_stub (hgroup : cryptoCtx.isGroup)
    (h : ∀ answer, ∃ C : List (InFlight ((stub N answer).runtime rt)), Answers C ∧
      batchText (stub N answer) cryptoCtx m = rowText C cryptoCtx m drCtx hints) :
    Agrees rt cryptoCtx drCtx m := by
  rintro ⟨c, iv⟩ hjob
  rw [if_pos hgroup]
  split_ifs with hpair
  · have htext (answer : Except String String) :
        ∃ C : List (InFlight ((stub N answer).runtime rt)), Answers C ∧
          unopenedText cryptoCtx c = shown (decryptRowPlaintext C cryptoCtx m drCtx hints) := by
      obtain ⟨C, hC, heq⟩ := h answer
      rw [batchText_stub hgroup hjob, rowText, if_pos hpair] at heq
      exact ⟨C, hC, heq⟩
    refine ⟨?_, fun hiv => ?_, fun hv hiv => ?_⟩
    · by_contra hkeys
      obtain ⟨hempty, hpublic⟩ := unopenedText_hasKeys (Bool.eq_false_iff.2 hkeys)
      obtain ⟨C, hC, heq⟩ := htext (.error "")
      exact shown_ne_empty hpublic hjob hC (heq.symm.trans (hempty c))
    · obtain ⟨C, -, heq⟩ := htext (.error "")
      rw [decryptRowPlaintext_plain hjob hiv] at heq
      exact heq
    · -- The text would be whatever the ratchet gives for an envelope.
      have hparse (hctx : drCtx.isSome) : parseDrDeviceEnvelope rt c = none := by
        by_contra hsome
        have hanswer (answer : Except String String) : unopenedText cryptoCtx c = shown answer := by
          obtain ⟨C, hC, heq⟩ := htext answer
          rcases decryptRowPlaintext_dr C cryptoCtx drCtx hints hjob hv hiv with
            ⟨ctx, -, hdr⟩ | ⟨hnone, -⟩
          · rw [heq, hdr, hC.decryptDrRow (Option.isSome_iff_ne_none.2 hsome)]
          · rw [hnone] at hctx
            cases hctx
        exact absurd ((hanswer (.ok "")).symm.trans (hanswer (.error ""))) (by decide)
      refine ⟨?_, hparse⟩
      obtain ⟨C, hC, heq⟩ := htext (.error "")
      rcases decryptRowPlaintext_dr C cryptoCtx drCtx hints hjob hv hiv with
        ⟨ctx, hctx, hdr⟩ | ⟨-, e, he⟩
      · have hnone : parseDrDeviceEnvelope ((stub N (.error "")).runtime rt) c = none :=
          hparse (by rw [hctx]; rfl)
        rw [heq, hdr, decryptDrRow, hnone, shown]
      · rw [heq, he, shown]
  · obtain ⟨C, -, hC⟩ := h (.ok "")
    rw [batchText_stub hgroup hjob, rowText, if_neg hpair] at hC
    exact hC

end

/-- **A batch and its rows.** For all keys and ratchets, and whatever calls are in flight, a batch
    shows what its rows show one by one, if and only if its rows are of the kinds that agree. -/
theorem decryptApiMessageRows_eq_iff (rt : Runtime N) (cryptoCtx : ChatCryptoContext)
    (rows : List ApiMessageRow) (drCtx : Option DrContext) (hints : DecryptHints) :
    (∀ (crypto : Crypto N) (L : List (InFlight (crypto.runtime rt))),
      decryptApiMessageRows L cryptoCtx rows drCtx hints =
        decryptRowByRow cryptoCtx drCtx hints L rows) ↔
    ∀ m ∈ rows, Agrees rt cryptoCtx drCtx m := by
  cases hgroup : cryptoCtx.isGroup with
  | true =>
    constructor
    · intro h m hm
      refine agrees_of_stub hints hgroup fun answer => ?_
      have heq := h (stub N answer) []
      rw [decryptApiMessageRows_group hgroup] at heq
      exact exists_rowText heq (fun call hcall => absurd hcall List.not_mem_nil) m hm
    · intro hrows crypto L
      rw [decryptApiMessageRows_group hgroup, decryptRowByRow_group hgroup hrows]
  | false =>
    have heach (crypto : Crypto N) (L : List (InFlight (crypto.runtime rt))) :
        decryptApiMessageRows L cryptoCtx rows drCtx hints =
          decryptEachRow cryptoCtx drCtx hints L rows := by
      cases cryptoCtx with
      | DIRECT | SELF => rfl
      | SECTOR | PUBLIC => cases hgroup
    constructor
    · intro h m hm it hjob
      have heq := h (stub N (.error "")) []
      rw [heach] at heq
      have hnil : Answers ([] : List (InFlight ((stub N (.error "")).runtime rt))) :=
        fun call hcall => absurd hcall List.not_mem_nil
      obtain ⟨C, C', hC, hC', htext⟩ := exists_rowText_each heq hnil hnil m hm
      rw [hgroup]
      by_contra hpair
      have hpublic : cryptoCtx ≠ .PUBLIC := by
        rintro rfl
        cases hgroup
      refine shown_ne_empty hpublic hjob hC (htext.trans ?_)
      exact if_neg hpair
    · intro hrows crypto L
      rw [heach]
      exact decryptEachRow_eq hgroup hrows fun _ _ _ _ _ => rfl

section
open Sample

/-- The poll of a group of one key. On its own it is shown as it is, but not when the chat is
    opened. -/
theorem poll_in_group :
    let crypto := stub ℕ (.error "ERR_NO_SESSION")
    let idle : List (InFlight (crypto.runtime runtime)) := []
    (decryptApiMessageRows idle (.SECTOR "c1" [1]) [pollRow] none hints).map (·.plaintext) =
        [decryptFail] ∧
      (decryptRowByRow (.SECTOR "c1" [1]) none hints idle [pollRow]).map (·.plaintext) =
        [pollText] := by
  decide +kernel

end

end OneToThree.Messages
