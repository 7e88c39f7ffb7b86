import OneToThree.Lib.Base64
import OneToThree.Lib.InsMap
import OneToThree.Messages.DecryptRow

/-!
# The rows of a group, one by one and in a batch

A row is read on its own by `decryptApiMessageRow`, and a page of rows by `decryptApiMessageRows`,
which has a path of its own for groups (`Crypto.decryptShared`): all rows with a ciphertext and an
iv are jobs for the newest key of the group, in a worker or one after the other, and those that
are left with the mark of a failure are tried again with the older keys.

AES-GCM is ideal (`Crypto`): a ciphertext opens to one text only, and only if it and its iv are
Base64.

* `get?_retryRing`: the passes with older keys come to trying the keys in turn on each job;
* `decryptShared_eq`: the batch, job by job.
-/

namespace OneToThree.Messages

/-! ## Base64 in the browser -/

def isAsciiWhitespace (c : Char) : Bool :=
  c = ' ' || c = '\t' || c = '\n' || c = '\r' || c = Char.ofNat 12

/-- The value of a digit. -/
def digitValue (c : Char) : Option ℕ := (List.range 64).find? (Base64.digit · = c)

/-- The bytes of a list of digits; bits that are left over are dropped. -/
def decodeDigits : List ℕ → List UInt8
  | a :: b :: c :: d :: l =>
    UInt8.ofNat (a * 4 + b / 16) :: UInt8.ofNat (b % 16 * 16 + c / 4) ::
      UInt8.ofNat (c % 4 * 64 + d) :: decodeDigits l
  | [a, b, c] => [UInt8.ofNat (a * 4 + b / 16), UInt8.ofNat (b % 16 * 16 + c / 4)]
  | [a, b] => [UInt8.ofNat (a * 4 + b / 16)]
  | _ => []

/-- The padding at the end of a text of full length. -/
def dropPadding (data : List Char) : List Char :=
  if data.length % 4 = 0 then
    if data.drop (data.length - 2) = ['=', '='] then data.take (data.length - 2)
    else if data.drop (data.length - 1) = ['='] then data.take (data.length - 1)
    else data
  else data

def atob (data : String) : Option (List UInt8) :=
  let data := dropPadding (data.toList.filter (!isAsciiWhitespace ·))
  if data.length % 4 = 1 then none else (data.mapM digitValue).map decodeDigits

/-- The text of a row of a public chat: `decodeURIComponent(escape(atob(c)))`, the bytes read as
    UTF-8. -/
def decodePublic (c : String) : Except String String :=
  match atob c with
  | none => .error "InvalidCharacterError"
  | some bytes =>
    match String.fromUTF8? (ByteArray.mk bytes.toArray) with
    | none => .error "URIError"
    | some text => .ok text

/-! ## The keys -/

/-- What opens ciphertexts: AES-GCM, which is ideal, the ratchets, the keys of the slots, and the
    worker. -/
structure Crypto (N : Type) where
  decryptMessage : GroupKey → (ciphertext iv : String) → Except String String
  /-- A ciphertext opens to one text, whatever the key. -/
  unique : ∀ k k' c iv t t',
    decryptMessage k c iv = .ok t → decryptMessage k' c iv = .ok t' → t = t'
  /-- It and its iv are decoded first. -/
  base64 : ∀ k c iv t, decryptMessage k c iv = .ok t → (atob c).isSome ∧ (atob iv).isSome
  decryptFromPeer : (ownerUserId peerUserId : String) → DrDeviceEnvelope N → Except String String
  decryptFanoutSlot : (senderKey ciphertext iv : String) → Except String String
  /-- Decrypting under the secret that one shares with oneself or with a peer. -/
  decryptDerived : ChatCryptoContext → (ciphertext iv : String) → Except String String
  revokedByKeyChange : (userId jwk : String) → Bool
  /-- Whether there are workers, and keys can be exported to them. -/
  hasWorker : Bool
  /-- The export, the worker or the import of the key fails. -/
  workerFails : Bool

/-- A text, or the mark of a failure. -/
def shown : Except String String → String
  | .ok text => text
  | .error _ => decryptFail

/-- The chats whose rows are read in a batch. -/
def ChatCryptoContext.isGroup : ChatCryptoContext → Bool
  | .SECTOR _ _ | .PUBLIC => true
  | .DIRECT _ _ | .SELF _ => false

/-- A ciphertext to open, and where its text goes. -/
structure Job where
  index : ℕ
  content : String
  iv : String
  deriving DecidableEq

def BATCH_WORKER_MIN : ℕ := 12

namespace Crypto

variable {N : Type} (crypto : Crypto N)

/-- Tries the keys in turn, and fails with the last error. -/
def decryptMessageWithKeys (ciphertext iv : String) (lastErr : String) :
    List GroupKey → Except String String
  | [] => .error lastErr
  | key :: keys =>
    match crypto.decryptMessage key ciphertext iv with
    | .ok text => .ok text
    | .error err => decryptMessageWithKeys ciphertext iv err keys

def decryptInboundText (frame : ChatCryptoContext) (ciphertext iv : String) :
    Except String String :=
  match frame with
  | .PUBLIC => decodePublic ciphertext
  | .SECTOR _ groupKeyRing =>
    crypto.decryptMessageWithKeys ciphertext iv "ERR_NO_SECTOR_KEYS" groupKeyRing
  | .SELF _ | .DIRECT _ _ => crypto.decryptDerived frame ciphertext iv

/-- What is shown of a job under a key. -/
def attempt (key : GroupKey) (j : Job) : String := shown (crypto.decryptMessage key j.content j.iv)

/-- The texts of jobs, each at its place. -/
def textsOf (jobs : List Job) (text : Job → String) : InsMap ℕ String :=
  jobs.foldl (fun map j => map.set j.index (text j)) ∅

def decryptJobsOnMain (aesKey : GroupKey) (jobs : List Job) : InsMap ℕ String :=
  textsOf jobs (crypto.attempt aesKey)

/-- The worker's answer: a text for each item, or the mark of a failure. -/
def decryptTextBatchInWorker (aesKey : GroupKey) (items : List (String × String)) :
    Option (List String) :=
  if crypto.workerFails then none
  else some (items.map fun it => shown (crypto.decryptMessage aesKey it.1 it.2))

/-- The jobs under the newest key. -/
def decryptJobs (aesKey : GroupKey) (jobs : List Job) : InsMap ℕ String :=
  if BATCH_WORKER_MIN ≤ jobs.length ∧ crypto.hasWorker then
    match crypto.decryptTextBatchInWorker aesKey (jobs.map fun j => (j.content, j.iv)) with
    | some plaintexts =>
      (jobs.zipIdx).foldl (fun map x => map.set x.1.index (plaintexts[x.2]?.getD decryptFail)) ∅
    | none => crypto.decryptJobsOnMain aesKey jobs
  else crypto.decryptJobsOnMain aesKey jobs

/-- What another key opens of the jobs that are left. -/
def retry (key : GroupKey) (pending : List Job) (plaintextByIndex : InsMap ℕ String) :
    InsMap ℕ String :=
  let retried := crypto.decryptJobsOnMain key pending
  pending.foldl
    (fun texts j =>
      match retried.get? j.index with
      | some v => if v = decryptFail then texts else texts.set j.index v
      | none => texts)
    plaintextByIndex

/-- The jobs that are still marked as failed. -/
def stillPending (plaintextByIndex : InsMap ℕ String) (jobs : List Job) : List Job :=
  jobs.filter fun j => plaintextByIndex.get? j.index = some decryptFail

/-- The retained keys in turn, each on what the ones before it have left. -/
def retryRing : List GroupKey → List Job → InsMap ℕ String → InsMap ℕ String
  | [], _, plaintextByIndex => plaintextByIndex
  | key :: ring, pending, plaintextByIndex =>
    if pending = [] then plaintextByIndex
    else
      let plaintextByIndex := crypto.retry key pending plaintextByIndex
      retryRing ring (stillPending plaintextByIndex pending) plaintextByIndex

/-- The ciphertexts and ivs as jobs. -/
def jobsOf (items : List (String × String)) : List Job :=
  items.zipIdx.map fun x => ⟨x.2, x.1.1, x.1.2⟩

/-- The texts of the jobs of a group. Without a key, all are blank. -/
def decryptShared (cryptoCtx : ChatCryptoContext) (items : List (String × String)) : List String :=
  let jobs := jobsOf items
  let plaintextByIndex : InsMap ℕ String :=
    match cryptoCtx with
    | .PUBLIC => textsOf jobs fun j => shown (decodePublic j.content)
    | .SECTOR _ (aesKey :: ring) =>
      let plaintextByIndex := crypto.decryptJobs aesKey jobs
      crypto.retryRing ring (stillPending plaintextByIndex jobs) plaintextByIndex
    | _ => ∅
  jobs.map fun j => (plaintextByIndex.get? j.index).getD ""

/-- The reader of rows with these keys. -/
def runtime (rt : Runtime N) : Runtime N where
  parse := rt.parse
  closed_of_parse := rt.closed_of_parse
  decryptFromPeer := crypto.decryptFromPeer
  decryptFanoutSlot := crypto.decryptFanoutSlot
  decryptInboundText := crypto.decryptInboundText
  decryptShared := crypto.decryptShared
  revokedByKeyChange := crypto.revokedByKeyChange

end Crypto

/-! ## One row -/

/-- A ciphertext with an iv of its own, in the slot or on the row. -/
def ApiMessageRow.hasPair (m : ApiMessageRow) : Bool :=
  ((truthyText m.device_ciphertext).isSome && m.device_iv.isSome) ||
    ((truthyText m.content).isSome && m.iv.isSome)

section
variable {N : Type} [JsNumber N] [DecidableEq N] {rt : Runtime N}

def decryptApiMessageRow (inFlightDrRows : List (InFlight rt)) (cryptoCtx : ChatCryptoContext)
    (m : ApiMessageRow) (drCtx : Option DrContext) (hints : DecryptHints) : DecryptedMessage N :=
  if m.hasPair then decryptRow inFlightDrRows cryptoCtx m drCtx hints else apiRowToDecrypted rt m ""

/-- Rows that are read each by a call of its own, the calls made one after the other while those
    before are in flight. -/
def decryptRowByRow (cryptoCtx : ChatCryptoContext) (drCtx : Option DrContext)
    (hints : DecryptHints) : List (InFlight rt) → List ApiMessageRow → List (DecryptedMessage N)
  | _, [] => []
  | inFlightDrRows, m :: rows =>
    decryptApiMessageRow inFlightDrRows cryptoCtx m drCtx hints ::
      decryptRowByRow cryptoCtx drCtx hints
        (if m.hasPair then publish inFlightDrRows m drCtx else inFlightDrRows) rows

end

/-! ## What the batch makes of a job -/

namespace Crypto

variable {N : Type} {crypto : Crypto N} {jobs : List Job} {j : Job}

theorem get?_textsOf (hjobs : (jobs.map Job.index).Nodup) (text : Job → String) (hj : j ∈ jobs) :
    (textsOf jobs text).get? j.index = some (text j) :=
  InsMap.get?_foldl_set Job.index text hjobs hj ∅

theorem map_zipIdx_index : (jobs.zipIdx.map fun x => x.1.index) = jobs.map Job.index := by
  conv_rhs => rw [← List.zipIdx_map_fst 0 jobs]
  rw [List.map_map]
  rfl

/-- The worker and the loop give the same texts. -/
theorem get?_decryptJobs (hjobs : (jobs.map Job.index).Nodup) (key : GroupKey) (hj : j ∈ jobs) :
    (crypto.decryptJobs key jobs).get? j.index = some (crypto.attempt key j) := by
  have hmain := get?_textsOf hjobs (crypto.attempt key) hj
  rw [decryptJobs]
  split_ifs
  · rw [decryptTextBatchInWorker]
    split_ifs
    · exact hmain
    · obtain ⟨k, hk⟩ := List.mem_iff_getElem?.1 hj
      have hmem : (j, k) ∈ jobs.zipIdx := List.mk_mem_zipIdx_iff_getElem?.2 hk
      dsimp only
      rw [← map_zipIdx_index] at hjobs
      refine (InsMap.get?_foldl_set (fun x => x.1.index) _ hjobs hmem ∅).trans ?_
      simp [hk, attempt]
  · exact hmain

/-- Another key writes the texts that it opens over the marks. -/
theorem get?_retry (hjobs : (jobs.map Job.index).Nodup) (key : GroupKey) (hj : j ∈ jobs)
    (texts : InsMap ℕ String) :
    (crypto.retry key jobs texts).get? j.index =
      if crypto.attempt key j = decryptFail then texts.get? j.index
      else some (crypto.attempt key j) := by
  have hj' := get?_textsOf hjobs (crypto.attempt key) hj
  refine (InsMap.get?_foldl Job.index
    (fun i text => match (crypto.decryptJobsOnMain key jobs).get? i.index with
      | some v => if v = decryptFail then text else some v
      | none => text) ?_ ?_ hjobs hj texts).trans ?_
  · intro m i k hk
    split
    · split_ifs
      · rfl
      · exact InsMap.get?_set_ne m _ (Ne.symm hk)
    · rfl
  · intro m i
    split
    · split_ifs
      · rfl
      · exact InsMap.get?_set_self m _ _
    · rfl
  · rw [decryptJobsOnMain, hj']

theorem get?_retry_ne {i : ℕ} (hi : i ∉ jobs.map Job.index) (key : GroupKey)
    (texts : InsMap ℕ String) : (crypto.retry key jobs texts).get? i = texts.get? i := by
  refine InsMap.get?_foldl_ne Job.index (fun m j k hk => ?_) hi texts
  split
  · split_ifs
    · rfl
    · exact InsMap.get?_set_ne m _ (Ne.symm hk)
  · rfl

theorem index_stillPending {texts : InsMap ℕ String} {i : ℕ} (hi : i ∉ jobs.map Job.index) :
    i ∉ (stillPending texts jobs).map Job.index :=
  fun h => hi (List.map_subset _ (List.filter_subset_self jobs) h)

theorem nodup_stillPending {texts : InsMap ℕ String} (hjobs : (jobs.map Job.index).Nodup) :
    ((stillPending texts jobs).map Job.index).Nodup :=
  hjobs.sublist (List.filter_sublist.map _)

theorem get?_retryRing_ne {i : ℕ} (ring : List GroupKey) (hi : i ∉ jobs.map Job.index)
    (texts : InsMap ℕ String) : (crypto.retryRing ring jobs texts).get? i = texts.get? i := by
  induction ring generalizing jobs texts with
  | nil => rfl
  | cons key ring ih =>
    rw [retryRing]
    split_ifs
    · rfl
    · exact (ih (index_stillPending hi) _).trans (get?_retry_ne hi key texts)

/-- A job that opens to the mark of a failure under one key is marked under all. -/
theorem shown_withKeys {key : GroupKey} {c iv : String}
    (h : crypto.decryptMessage key c iv = .ok decryptFail) (lastErr : String)
    (ring : List GroupKey) :
    shown (crypto.decryptMessageWithKeys c iv lastErr ring) = decryptFail := by
  induction ring generalizing lastErr with
  | nil => rfl
  | cons key' ring ih =>
    rw [decryptMessageWithKeys]
    cases hkey : crypto.decryptMessage key' c iv with
    | ok text => exact crypto.unique _ _ _ _ _ _ hkey h
    | error err => exact ih err

/-- A job that a key has opened is left alone. -/
theorem not_mem_stillPending (hjobs : (jobs.map Job.index).Nodup) (hj : j ∈ jobs)
    {texts : InsMap ℕ String} {text : String} (htexts : texts.get? j.index = some text)
    (hmark : text ≠ decryptFail) : j.index ∉ (stillPending texts jobs).map Job.index := by
  intro hindex
  obtain ⟨i, hi, heq⟩ := List.mem_map.1 hindex
  rw [stillPending, List.mem_filter] at hi
  obtain rfl := List.inj_on_of_nodup_map hjobs hi.1 hj heq
  exact hmark (Option.some.inj (htexts.symm.trans (of_decide_eq_true hi.2)))

theorem mem_stillPending (hj : j ∈ jobs) {texts : InsMap ℕ String}
    (htexts : texts.get? j.index = some decryptFail) : j ∈ stillPending texts jobs :=
  List.mem_filter.2 ⟨hj, decide_eq_true htexts⟩

/-- What the first key opens is kept, and the rest is left to the other keys. -/
theorem get?_retryRing_cons {ring : List GroupKey} {key : GroupKey}
    (hjobs : (jobs.map Job.index).Nodup) (hj : j ∈ jobs) {texts : InsMap ℕ String}
    (htexts : texts.get? j.index = some (crypto.attempt key j))
    (hrest : crypto.attempt key j = decryptFail → ∀ lastErr,
      (crypto.retryRing ring (stillPending texts jobs) texts).get? j.index =
        some (shown (crypto.decryptMessageWithKeys j.content j.iv lastErr ring)))
    (lastErr : String) :
    (crypto.retryRing ring (stillPending texts jobs) texts).get? j.index =
      some (shown (crypto.decryptMessageWithKeys j.content j.iv lastErr (key :: ring))) := by
  rw [decryptMessageWithKeys]
  cases hkey : crypto.decryptMessage key j.content j.iv with
  | error err => exact hrest (by rw [attempt, hkey, shown]) err
  | ok text =>
    have htext : crypto.attempt key j = text := by rw [attempt, hkey, shown]
    by_cases hmark : text = decryptFail
    · subst hmark
      exact (hrest htext lastErr).trans (congrArg some (shown_withKeys hkey lastErr ring))
    · have hdone := not_mem_stillPending hjobs hj htexts (htext.trans_ne hmark)
      rw [get?_retryRing_ne ring hdone, htexts, htext, shown]

/-- The passes over the jobs that are left come to trying the keys in turn on each job. -/
theorem get?_retryRing (ring : List GroupKey) {key : GroupKey}
    (hjobs : (jobs.map Job.index).Nodup) (hj : j ∈ jobs) {texts : InsMap ℕ String}
    (htexts : texts.get? j.index = some (crypto.attempt key j)) (lastErr : String) :
    (crypto.retryRing ring (stillPending texts jobs) texts).get? j.index =
      some (shown (crypto.decryptMessageWithKeys j.content j.iv lastErr (key :: ring))) := by
  induction ring generalizing jobs texts key lastErr with
  | nil =>
    refine get?_retryRing_cons hjobs hj htexts (fun h _ => ?_) lastErr
    exact htexts.trans (congrArg some h)
  | cons key' ring ih =>
    refine get?_retryRing_cons hjobs hj htexts (fun h lastErr => ?_) lastErr
    have hpending := mem_stillPending hj (htexts.trans (congrArg some h))
    have hjobs' : ((stillPending texts jobs).map Job.index).Nodup := nodup_stillPending hjobs
    rw [retryRing, if_neg (List.ne_nil_of_mem hpending)]
    refine ih hjobs' hpending ?_ lastErr
    rw [get?_retry hjobs' key' hpending, htexts, h]
    split_ifs with hmark
    · rw [hmark]
    · rfl

/-- What the batch shows of a ciphertext in a group. -/
def sharedText (crypto : Crypto N) (cryptoCtx : ChatCryptoContext) (c iv : String) : String :=
  match cryptoCtx with
  | .SECTOR _ [] => ""
  | frame => shown (crypto.decryptInboundText frame c iv)

theorem nodup_jobsOf (items : List (String × String)) : ((jobsOf items).map Job.index).Nodup := by
  have h : (jobsOf items).map Job.index = List.range items.length := by
    rw [jobsOf, List.map_map, List.range_eq_range']
    exact List.zipIdx_map_snd 0 items
  exact h ▸ List.nodup_range

theorem map_jobsOf (items : List (String × String)) :
    (jobsOf items).map (fun j => (j.content, j.iv)) = items := by
  rw [jobsOf, List.map_map]
  exact List.zipIdx_map_fst 0 items

/-- **The batch of a group**, job by job: the texts do not depend on the other jobs, on the worker,
    or on the passes that the keys are tried in. -/
theorem decryptShared_eq (crypto : Crypto N) {cryptoCtx : ChatCryptoContext}
    (hgroup : cryptoCtx.isGroup) (items : List (String × String)) :
    crypto.decryptShared cryptoCtx items =
      items.map fun it => crypto.sharedText cryptoCtx it.1 it.2 := by
  have hjobs := nodup_jobsOf items
  conv_rhs => rw [← map_jobsOf items, List.map_map]
  refine List.map_congr_left fun j hj => ?_
  dsimp only [Function.comp_apply]
  cases cryptoCtx with
  | DIRECT | SELF => cases hgroup
  | PUBLIC => exact congrArg (Option.getD · "") (get?_textsOf hjobs _ hj)
  | SECTOR chatId ring =>
    cases ring with
    | nil => rfl
    | cons aesKey ring =>
      exact congrArg (Option.getD · "")
        (get?_retryRing ring hjobs hj (get?_decryptJobs hjobs aesKey hj) "ERR_NO_SECTOR_KEYS")

end Crypto

end OneToThree.Messages
