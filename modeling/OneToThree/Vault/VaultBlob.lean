import OneToThree.Lib.JsonMembers
import OneToThree.Lib.TextBytes
import Mathlib.Logic.Equiv.List

/-!
# The vault

The private keys of an account are sealed under a PIN. A blob says by its fields how its key was
derived, with Argon2id from version 4 on, and since version 5 it also authenticates its version and
its parameters. Blobs of every earlier version are read, and sealed again in the current one.

* `VaultCrypto`: the key derivations and AES-GCM, which are ideal.
* `keeps_iff`: what is sealed is what comes out again, and nothing else, exactly if the text begins
  with no byte order mark and the parameters are given in the order in which they are read.
-/

namespace OneToThree.Vault

open JsText JsonUnits TextBytes

/-! ## Blobs -/

structure Argon2Params (N : Type) where
  t : N
  m : N
  p : N

inductive ParamName
  | t
  | m
  | p
  deriving DecidableEq

def ParamName.text : ParamName → String
  | t => "t"
  | m => "m"
  | p => "p"

/-- The order in which parameters are read from a blob. -/
def ParamName.all : List ParamName := [t, m, p]

def Argon2Params.get {N : Type} (params : Argon2Params N) : ParamName → N
  | .t => params.t
  | .m => params.m
  | .p => params.p

/-- Parameters as a caller gives them: their members come in some order. -/
structure Argon2Object (N : Type) where
  params : Argon2Params N
  order : List ParamName
  perm : order.Perm ParamName.all

structure VaultBlob (N : Type) where
  version : N
  saltB64 : JsText
  ivB64 : JsText
  ciphertextB64 : JsText
  /-- Since version 3; before, the number was fixed. -/
  pbkdf2Iterations : Option N
  /-- Since version 4. -/
  argon2 : Option (Argon2Params N)

variable {N : Type} [OrderedNumber N]

def ARGON2_DEFAULT_PARAMS : Argon2Object N where
  params := ⟨OrderedNumber.ofNat 3, OrderedNumber.ofNat (64 * 1024), OrderedNumber.ofNat 1⟩
  order := ParamName.all
  perm := .refl _

def CURRENT_VAULT_VERSION : N := OrderedNumber.ofNat 5

def PBKDF2_ITERATIONS_LEGACY : N := OrderedNumber.ofNat 210000

def Argon2Params.json (params : Argon2Params N) (order : List ParamName) : Value N :=
  .obj (order.map fun name => (ascii name.text, .num (params.get name)))

def VaultBlob.json (blob : VaultBlob N) : Value N :=
  .obj ([(ascii "version", .num blob.version), (ascii "saltB64", .str blob.saltB64),
      (ascii "ivB64", .str blob.ivB64), (ascii "ciphertextB64", .str blob.ciphertextB64)] ++
    JsonUnits.optional "pbkdf2Iterations" .num blob.pbkdf2Iterations ++
    JsonUnits.optional "argon2" (·.json ParamName.all) blob.argon2)

def parseArgon2 (x : Value N) : Option (Argon2Params N) :=
  ((x.get? "t").bind Value.num?).bind fun t => ((x.get? "m").bind Value.num?).bind fun m =>
    ((x.get? "p").bind Value.num?).map fun p => ⟨t, m, p⟩

/-- A field of a blob that must not be empty, as a text. -/
def requiredText (parsed : Value N) (key : String) : Option JsText :=
  ((parsed.get? key).filter Value.isTruthy).map Value.toText

def parseVaultBlobJson (raw : JsText) : Option (VaultBlob N) :=
  (parseOwn raw).bind fun parsed => (requiredText parsed "saltB64").bind fun saltB64 =>
    (requiredText parsed "ivB64").bind fun ivB64 =>
      (requiredText parsed "ciphertextB64").map fun ciphertextB64 =>
        { version := ((parsed.get? "version").bind Value.num?).getD (OrderedNumber.ofNat 1)
          saltB64
          ivB64
          ciphertextB64
          pbkdf2Iterations := (parsed.get? "pbkdf2Iterations").bind Value.num?
          argon2 := (parsed.get? "argon2").bind parseArgon2 }

/-! ## Sealing -/

/-- Keys are derived injectively, and a ciphertext is of one key, one IV, one text of additional
    data (none being the empty one) and one plaintext. -/
structure VaultCrypto (N K : Type) [OrderedNumber N] where
  argon2 : JsText → Bytes → Argon2Params N → Option K
  pbkdf2 : JsText → Bytes → N → Option K
  encrypt : K → Bytes → JsText → Bytes → Bytes
  decrypt : K → Bytes → JsText → Bytes → Option Bytes
  /-- What a decoder makes of bytes that are no UTF-8. -/
  replaced : Bytes → String
  argon2_default : ∀ pin salt, salt.length = 16 →
    (argon2 pin salt ARGON2_DEFAULT_PARAMS.params).isSome
  argon2_inj : ∀ pin salt salt' params params' k, argon2 pin salt params = some k →
    argon2 pin salt' params' = some k → salt = salt' ∧ params = params'
  argon2_ne_pbkdf2 : ∀ pin salt salt' params n k, argon2 pin salt params = some k →
    pbkdf2 pin salt' n ≠ some k
  decrypt_encrypt : ∀ k iv aad bytes, decrypt k iv aad (encrypt k iv aad bytes) = some bytes
  encrypt_of_decrypt : ∀ k iv aad cipher bytes, decrypt k iv aad cipher = some bytes →
    cipher = encrypt k iv aad bytes
  encrypt_inj : ∀ k k' iv iv' aad aad' bytes bytes',
    encrypt k iv aad bytes = encrypt k' iv' aad' bytes' →
      k = k' ∧ iv = iv' ∧ aad = aad' ∧ bytes = bytes'
  encrypt_ne_nil : ∀ k iv aad bytes, encrypt k iv aad bytes ≠ []

/-- The random bytes of a sealing. -/
structure Draws where
  salt : Bytes
  iv : Bytes
  salt_length : salt.length = 16
  iv_length : iv.length = 12

def additionalData (version : N) (params : Argon2Params N) (order : List ParamName) : JsText :=
  stringify (.obj [(ascii "version", .num version), (ascii "argon2", params.json order)])

section
variable {K : Type} (C : VaultCrypto N K)

def wrapPrivateJwkWithPin (draws : Draws) (jwkString : String) (pin : JsText)
    (params : Argon2Object N) : Option (VaultBlob N) :=
  (C.argon2 pin draws.salt params.params).map fun wrapKey =>
    let aad := additionalData CURRENT_VAULT_VERSION params.params params.order
    { version := CURRENT_VAULT_VERSION
      saltB64 := toB64 draws.salt
      ivB64 := toB64 draws.iv
      ciphertextB64 := toB64 (C.encrypt wrapKey draws.iv aad (encodeText jwkString))
      pbkdf2Iterations := none
      argon2 := some params.params }

/-- The key of a blob, with the additional data that it is opened with. -/
def wrapKeyOf (blob : VaultBlob N) (pin : JsText) (salt : Bytes) : Option (K × JsText) :=
  match blob.argon2 with
  | some params =>
    if OrderedNumber.ge blob.version (OrderedNumber.ofNat 5) then
      (C.argon2 pin salt params).map (·, additionalData blob.version params ParamName.all)
    else if OrderedNumber.ge blob.version (OrderedNumber.ofNat 4) then
      (C.argon2 pin salt params).map (·, [])
    else (C.pbkdf2 pin salt (blob.pbkdf2Iterations.getD PBKDF2_ITERATIONS_LEGACY)).map (·, [])
  | none => (C.pbkdf2 pin salt (blob.pbkdf2Iterations.getD PBKDF2_ITERATIONS_LEGACY)).map (·, [])

def unwrapPrivateJwkWithPin (blob : VaultBlob N) (pin : JsText) : Option String :=
  (fromB64 blob.saltB64).bind fun salt => (fromB64 blob.ivB64).bind fun iv =>
    (fromB64 blob.ciphertextB64).bind fun cipher => (wrapKeyOf C blob pin salt).bind fun key =>
      (C.decrypt key.1 iv key.2 cipher).map (decodeText C.replaced)

def upgradeVaultBlob (draws : Draws) (oldBlob : VaultBlob N) (pin : JsText) :
    Option (VaultBlob N) :=
  if OrderedNumber.ge oldBlob.version (CURRENT_VAULT_VERSION : N) then some oldBlob
  else (unwrapPrivateJwkWithPin C oldBlob pin).bind fun jwk =>
    wrapPrivateJwkWithPin C draws jwk pin ARGON2_DEFAULT_PARAMS

/-! ## What becomes of a blob -/

/-- A blob is stored as a text and read again, or it is sealed in the current version. -/
inductive Handling
  | store
  | upgrade (draws : Draws)

def handle (pin : JsText) (blob : VaultBlob N) : Handling → Option (VaultBlob N)
  | .store => parseVaultBlobJson (stringify blob.json)
  | .upgrade draws => upgradeVaultBlob C draws blob pin

def handleAll (pin : JsText) (blob : VaultBlob N) (hs : List Handling) : Option (VaultBlob N) :=
  hs.foldlM (handle C pin) blob

/-- However a blob is handled, the text comes out. -/
def RoundTrips (pin : JsText) (jwkString : String) (blob : VaultBlob N) : Prop :=
  ∀ hs, (handleAll C pin blob hs).bind (unwrapPrivateJwkWithPin C · pin) = some jwkString

/-- A key of the PIN, whatever the parameters are. -/
def IsKey (pin : JsText) (k : K) : Prop :=
  (∃ salt params, C.argon2 pin salt params = some k) ∨ ∃ salt n, C.pbkdf2 pin salt n = some k

/-- Who does not have the PIN has no other ciphertext under a key of it than the one at hand. -/
def NotForged (pin : JsText) (blob blob' : VaultBlob N) : Prop :=
  fromB64 blob'.ciphertextB64 = fromB64 blob.ciphertextB64 ∨ ∀ k iv aad bytes, IsKey C pin k →
    fromB64 blob'.ciphertextB64 ≠ some (C.encrypt k iv aad bytes)

/-- Whatever becomes of the text of a blob, what comes out of it is what was sealed, by the version
    and the parameters it was sealed with. -/
def Bound (pin : JsText) (jwkString : String) (blob : VaultBlob N) : Prop :=
  ∀ raw blob' jwk, parseVaultBlobJson raw = some blob' → NotForged C pin blob blob' →
    unwrapPrivateJwkWithPin C blob' pin = some jwk →
      jwk = jwkString ∧ blob'.version = blob.version ∧ blob'.argon2 = blob.argon2

/-- A blob holds a text: it is sealed as its fields say. -/
def Holds (pin : JsText) (jwkString : String) (blob : VaultBlob N) : Prop :=
  ∃ salt iv k aad, blob.saltB64 = toB64 salt ∧ salt ≠ [] ∧ blob.ivB64 = toB64 iv ∧ iv ≠ [] ∧
    wrapKeyOf C blob pin salt = some (k, aad) ∧
      blob.ciphertextB64 = toB64 (C.encrypt k iv aad (encodeText jwkString))

/-- A blob of an earlier version that holds a text. -/
def IsLegacy (pin : JsText) (jwkString : String) (blob : VaultBlob N) : Prop :=
  OrderedNumber.ge blob.version (CURRENT_VAULT_VERSION : N) = false ∧ Holds C pin jwkString blob

end

section
variable {K : Type} {C : VaultCrypto N K} {pin : JsText} {jwkString : String}
  {blob : VaultBlob N}

/-! ## Blobs as texts -/

omit [OrderedNumber N] in
theorem parseArgon2_json (params : Argon2Params N) :
    parseArgon2 (params.json ParamName.all) = some params := by
  simp [parseArgon2, Argon2Params.json, ParamName.all, ParamName.text, Argon2Params.get,
    Value.get?, field, ascii_inj, Value.num?]

omit [OrderedNumber N] in
theorem own_json (params : Argon2Params N) :
    (params.json ParamName.all).own = params.json ParamName.all := by
  have hindex : ∀ key ∈ ["t", "m", "p"], arrayIndex (ascii key) = none := by decide
  simp only [Argon2Params.json, ParamName.all, List.map_cons, List.map_nil, Value.own, ownFields]
  rw [ownMembers_eq_self]
  · simp [ParamName.text, ascii_inj]
  · simp [ParamName.text, hindex]

omit [OrderedNumber N] in
theorem VaultBlob.own_json (blob : VaultBlob N) : blob.json.own = blob.json := by
  have hindex : ∀ key ∈ ["version", "saltB64", "ivB64", "ciphertextB64", "pbkdf2Iterations",
      "argon2"], arrayIndex (ascii key) = none := by decide
  have hvalues : ownFields (JsonUnits.optional "argon2" (·.json ParamName.all) blob.argon2) =
      JsonUnits.optional "argon2" (·.json ParamName.all) blob.argon2 := by
    cases blob.argon2 with
    | none => rfl
    | some params => exact congrArg (fun x => [(_, x)]) (Vault.own_json params)
  have hfields : ownFields ([(ascii "version", .num blob.version),
      (ascii "saltB64", .str blob.saltB64), (ascii "ivB64", .str blob.ivB64),
      (ascii "ciphertextB64", .str blob.ciphertextB64)] ++
      JsonUnits.optional "pbkdf2Iterations" .num blob.pbkdf2Iterations ++
      JsonUnits.optional "argon2" (·.json ParamName.all) blob.argon2) =
      [(ascii "version", .num blob.version),
      (ascii "saltB64", .str blob.saltB64), (ascii "ivB64", .str blob.ivB64),
      (ascii "ciphertextB64", .str blob.ciphertextB64)] ++
      JsonUnits.optional "pbkdf2Iterations" .num blob.pbkdf2Iterations ++
      JsonUnits.optional "argon2" (·.json ParamName.all) blob.argon2 := by
    cases blob.pbkdf2Iterations with
    | none => simpa [ownFields, Value.own, JsonUnits.optional] using hvalues
    | some n => simpa [ownFields, Value.own, JsonUnits.optional] using hvalues
  rw [VaultBlob.json, Value.own, hfields, ownMembers_eq_self]
  · cases blob.pbkdf2Iterations <;> cases blob.argon2 <;> simp [JsonUnits.optional, ascii_inj]
  · cases blob.pbkdf2Iterations <;> cases blob.argon2 <;> simp [JsonUnits.optional, hindex]

theorem filter_isTruthy_str {t : JsText} (h : t ≠ []) :
    (Option.filter Value.isTruthy (some (Value.str (N := N) t))).map Value.toText = some t := by
  have htruthy : (Value.str (N := N) t).isTruthy = true := decide_eq_true h
  rw [Option.filter_some, if_pos htruthy]
  rfl

/-- A blob that is stored is read again as it was. -/
theorem parse_json (hsalt : blob.saltB64 ≠ []) (hiv : blob.ivB64 ≠ [])
    (hcipher : blob.ciphertextB64 ≠ []) :
    parseVaultBlobJson (stringify blob.json) = some blob := by
  have hget : ∀ key, blob.json.get? key = field (ascii key)
      ([(ascii "version", .num blob.version), (ascii "saltB64", .str blob.saltB64),
        (ascii "ivB64", .str blob.ivB64), (ascii "ciphertextB64", .str blob.ciphertextB64)] ++
      JsonUnits.optional "pbkdf2Iterations" .num blob.pbkdf2Iterations ++
      JsonUnits.optional "argon2" (·.json ParamName.all) blob.argon2) := fun _ => rfl
  have hargon2 : (blob.argon2.map (·.json ParamName.all)).bind parseArgon2 = blob.argon2 := by
    cases blob.argon2 with
    | none => rfl
    | some params => exact parseArgon2_json params
  have hiterations : (blob.pbkdf2Iterations.map (Value.num (N := N))).bind Value.num? =
      blob.pbkdf2Iterations := by
    cases blob.pbkdf2Iterations <;> rfl
  rw [parseVaultBlobJson, parseOwn, parse_stringify, Option.map_some, blob.own_json,
    Option.bind_some]
  simp only [requiredText, hget, field_append, field_optional, field, ascii_inj]
  have hversion : Value.num? (.num blob.version) = some blob.version := rfl
  simp [filter_isTruthy_str hsalt, filter_isTruthy_str hiv, filter_isTruthy_str hcipher,
    hversion, hargon2, hiterations]

/-! ## What is sealed comes out again -/

theorem unwrap_of_holds (h : Holds C pin jwkString blob) :
    unwrapPrivateJwkWithPin C blob pin = some (withoutMark jwkString) := by
  obtain ⟨salt, iv, k, aad, hsalt, -, hiv, -, hkey, hcipher⟩ := h
  rw [unwrapPrivateJwkWithPin, hsalt, fromB64_toB64, Option.bind_some, hiv, fromB64_toB64,
    Option.bind_some, hcipher, fromB64_toB64, Option.bind_some, hkey, Option.bind_some]
  dsimp only
  rw [C.decrypt_encrypt, Option.map_some, decodeText_encodeText]

theorem ge_current :
    OrderedNumber.ge (CURRENT_VAULT_VERSION : N) (OrderedNumber.ofNat 5) = true := by
  rw [CURRENT_VAULT_VERSION, OrderedNumber.ge_ofNat]
  rfl

theorem wrapKeyOf_current {params : Argon2Params N} {salt : Bytes}
    (hversion : blob.version = CURRENT_VAULT_VERSION) (hparams : blob.argon2 = some params) :
    wrapKeyOf C blob pin salt = (C.argon2 pin salt params).map
      (·, additionalData CURRENT_VAULT_VERSION params ParamName.all) := by
  rw [wrapKeyOf, hparams, hversion]
  dsimp only
  rw [if_pos ge_current]

theorem Draws.salt_ne_nil (draws : Draws) : draws.salt ≠ [] := by
  intro hnil
  have hlen := draws.salt_length
  rw [hnil] at hlen
  exact absurd hlen (by decide)

theorem Draws.iv_ne_nil (draws : Draws) : draws.iv ≠ [] := by
  intro hnil
  have hlen := draws.iv_length
  rw [hnil] at hlen
  exact absurd hlen (by decide)

/-- With the parameters in their order, the wrapper seals as the fields of the blob say. -/
theorem holds_of_wrap {draws : Draws} {params : Argon2Object N}
    (h : wrapPrivateJwkWithPin C draws jwkString pin params = some blob)
    (horder : params.order = ParamName.all) :
    Holds C pin jwkString blob ∧ blob.version = CURRENT_VAULT_VERSION := by
  obtain ⟨k, hk, rfl⟩ := Option.map_eq_some_iff.1 h
  refine ⟨⟨draws.salt, draws.iv, k, _, rfl, draws.salt_ne_nil, rfl, draws.iv_ne_nil, ?_, rfl⟩, rfl⟩
  rw [wrapKeyOf_current rfl rfl, hk, horder]
  rfl

theorem Holds.parse_json (h : Holds C pin jwkString blob) :
    parseVaultBlobJson (stringify blob.json) = some blob := by
  obtain ⟨salt, iv, k, aad, hsalt, hsalt', hiv, hiv', -, hcipher⟩ := h
  refine Vault.parse_json ?_ ?_ ?_
  · exact hsalt ▸ toB64_ne_nil hsalt'
  · exact hiv ▸ toB64_ne_nil hiv'
  · exact hcipher ▸ toB64_ne_nil (C.encrypt_ne_nil _ _ _ _)

/-- A blob that holds a text goes on to hold it. -/
theorem Holds.handle (h : Holds C pin jwkString blob)
    (hmark : withoutMark jwkString = jwkString) (handling : Handling) :
    ∃ blob', handle C pin blob handling = some blob' ∧ Holds C pin jwkString blob' := by
  cases handling with
  | store => exact ⟨blob, h.parse_json, h⟩
  | upgrade draws =>
    rw [Vault.handle, upgradeVaultBlob]
    split_ifs
    · exact ⟨blob, rfl, h⟩
    · rw [unwrap_of_holds h, hmark, Option.bind_some]
      have hkey := C.argon2_default pin draws.salt draws.salt_length
      obtain ⟨k, hk⟩ := Option.isSome_iff_exists.1 hkey
      have hwrap : ∃ blob', wrapPrivateJwkWithPin C draws jwkString pin
          (ARGON2_DEFAULT_PARAMS : Argon2Object N) = some blob' := by
        rw [wrapPrivateJwkWithPin, hk]
        exact ⟨_, rfl⟩
      obtain ⟨blob', hblob'⟩ := hwrap
      exact ⟨blob', hblob', (holds_of_wrap hblob' rfl).1⟩

theorem Holds.roundTrips (h : Holds C pin jwkString blob)
    (hmark : withoutMark jwkString = jwkString) : RoundTrips C pin jwkString blob := by
  intro hs
  induction hs generalizing blob with
  | nil => exact (unwrap_of_holds h).trans (congrArg some hmark)
  | cons handling hs ih =>
    obtain ⟨blob', hblob', h'⟩ := h.handle hmark handling
    have hrest := ih h'
    rw [handleAll] at hrest ⊢
    rw [List.foldlM_cons, hblob']
    exact hrest

/-! ## What is not sealed does not come out -/

theorem additionalData_inj {version version' : N} {params params' : Argon2Params N}
    {order order' : List ParamName}
    (h : additionalData version params order = additionalData version' params' order') :
    version = version' ∧ params.json order = params'.json order' := by
  have hvalue := stringify_inj h
  simpa using hvalue

omit [OrderedNumber N] in
theorem order_eq_of_json {params params' : Argon2Params N} {order order' : List ParamName}
    (h : params.json order = params'.json order') : order = order' := by
  have hnames := congrArg (List.map (·.1)) (Value.obj.inj h)
  rw [List.map_map, List.map_map] at hnames
  refine List.map_injective_iff.2 ?_ hnames
  intro n n' heq
  have htext : n.text = n'.text := ascii_inj.1 heq
  cases n <;> cases n' <;> first | rfl | exact absurd htext (by decide)

theorem isKey_of_wrapKeyOf {salt : Bytes} {key : K × JsText}
    (h : wrapKeyOf C blob pin salt = some key) : IsKey C pin key.1 := by
  have hargon2 : ∀ {params : Argon2Params N} {aad : JsText},
      (C.argon2 pin salt params).map (·, aad) = some key → IsKey C pin key.1 := by
    intro params aad hkey
    obtain ⟨k, hk, rfl⟩ := Option.map_eq_some_iff.1 hkey
    exact .inl ⟨salt, params, hk⟩
  have hpbkdf2 : ∀ {n : N} {aad : JsText},
      (C.pbkdf2 pin salt n).map (·, aad) = some key → IsKey C pin key.1 := by
    intro n aad hkey
    obtain ⟨k, hk, rfl⟩ := Option.map_eq_some_iff.1 hkey
    exact .inr ⟨salt, n, hk⟩
  rw [wrapKeyOf] at h
  split at h
  · split_ifs at h
    exacts [hargon2 h, hargon2 h, hpbkdf2 h]
  · exact hpbkdf2 h

/-- A key of a blob that comes with additional data is that of the current version. -/
theorem eq_of_wrapKeyOf {salt salt' : Bytes} {k : K} {version : N} {params : Argon2Params N}
    {order : List ParamName} (hk : C.argon2 pin salt params = some k)
    (h : wrapKeyOf C blob pin salt' = some (k, additionalData version params order)) :
    blob.version = version ∧ blob.argon2 = some params := by
  have hne : additionalData version params order ≠ [] := by
    obtain ⟨u, t, ht, -⟩ := stringify_head
      (Value.obj [(ascii "version", Value.num version), (ascii "argon2", params.json order)])
    rw [additionalData, ht]
    exact List.cons_ne_nil u t
  have hpbkdf2 : ∀ {n : N}, (C.pbkdf2 pin salt' n).map (·, ([] : JsText)) ≠
      some (k, additionalData version params order) := by
    intro n hn
    obtain ⟨k', -, heq⟩ := Option.map_eq_some_iff.1 hn
    exact hne (Prod.mk.inj heq).2.symm
  rw [wrapKeyOf] at h
  split at h
  · rename_i params' hparams
    split_ifs at h
    · obtain ⟨k', hk', heq⟩ := Option.map_eq_some_iff.1 h
      obtain ⟨rfl, haad⟩ := Prod.mk.inj heq
      obtain ⟨hversion, -⟩ := additionalData_inj haad
      obtain ⟨-, rfl⟩ := C.argon2_inj _ _ _ _ _ _ hk hk'
      exact ⟨hversion, hparams⟩
    · obtain ⟨k', -, heq⟩ := Option.map_eq_some_iff.1 h
      exact absurd (Prod.mk.inj heq).2.symm hne
    · exact absurd h hpbkdf2
  · exact absurd h hpbkdf2

theorem bound_of_wrap {draws : Draws} {params : Argon2Object N}
    (h : wrapPrivateJwkWithPin C draws jwkString pin params = some blob)
    (hmark : withoutMark jwkString = jwkString) : Bound C pin jwkString blob := by
  obtain ⟨k, hk, rfl⟩ := Option.map_eq_some_iff.1 h
  intro raw blob' jwk _ hforged hunwrap
  obtain ⟨salt', -, hunwrap⟩ := Option.bind_eq_some_iff.1 hunwrap
  obtain ⟨iv', -, hunwrap⟩ := Option.bind_eq_some_iff.1 hunwrap
  obtain ⟨cipher', hcipher', hunwrap⟩ := Option.bind_eq_some_iff.1 hunwrap
  obtain ⟨⟨k', aad'⟩, hkey', hunwrap⟩ := Option.bind_eq_some_iff.1 hunwrap
  obtain ⟨bytes, hbytes, rfl⟩ := Option.map_eq_some_iff.1 hunwrap
  have hsealed := C.encrypt_of_decrypt _ _ _ _ _ hbytes
  rcases hforged with hsame | hother
  · rw [hcipher', fromB64_toB64] at hsame
    have hcipher := hsealed.symm.trans (Option.some.inj hsame)
    obtain ⟨rfl, -, rfl, rfl⟩ := C.encrypt_inj _ _ _ _ _ _ _ _ hcipher
    obtain ⟨hversion, hparams⟩ := eq_of_wrapKeyOf hk hkey'
    exact ⟨(decodeText_encodeText C.replaced jwkString).trans hmark, hversion, hparams⟩
  · rw [hcipher', hsealed] at hother
    exact absurd rfl (hother k' iv' aad' bytes (isKey_of_wrapKeyOf hkey'))

/-- Parameters in another order are authenticated in that order, and opened in their own. -/
theorem order_of_unwrap {draws : Draws} {params : Argon2Object N} {jwk : String}
    (h : wrapPrivateJwkWithPin C draws jwkString pin params = some blob)
    (hunwrap : unwrapPrivateJwkWithPin C blob pin = some jwk) :
    params.order = ParamName.all ∧ jwk = withoutMark jwkString := by
  obtain ⟨k, hk, rfl⟩ := Option.map_eq_some_iff.1 h
  rw [unwrapPrivateJwkWithPin] at hunwrap
  dsimp only at hunwrap
  rw [fromB64_toB64, Option.bind_some, fromB64_toB64, Option.bind_some, fromB64_toB64,
    Option.bind_some, wrapKeyOf_current rfl rfl, hk, Option.map_some, Option.bind_some] at hunwrap
  obtain ⟨bytes, hbytes, rfl⟩ := Option.map_eq_some_iff.1 hunwrap
  have hsealed := C.encrypt_of_decrypt _ _ _ _ _ hbytes
  obtain ⟨-, -, haad, rfl⟩ := C.encrypt_inj _ _ _ _ _ _ _ _ hsealed
  exact ⟨order_eq_of_json (additionalData_inj haad).2, decodeText_encodeText C.replaced jwkString⟩

/-- What was sealed comes out, of a blob of any version and however it is handled, and nothing else
    of what is made of the blob: exactly if the text begins with no byte order mark and the
    parameters are given in the order in which they are read. -/
theorem keeps_iff {draws : Draws} {params : Argon2Object N}
    (h : wrapPrivateJwkWithPin C draws jwkString pin params = some blob) :
    (RoundTrips C pin jwkString blob ∧ Bound C pin jwkString blob ∧
        ∀ old, IsLegacy C pin jwkString old → RoundTrips C pin jwkString old) ↔
      jwkString.toList.head? ≠ some '\uFEFF' ∧ params.order = ParamName.all := by
  rw [← withoutMark_eq_self_iff]
  constructor
  · rintro ⟨hround, -⟩
    obtain ⟨horder, heq⟩ := order_of_unwrap h (hround [])
    exact ⟨heq.symm, horder⟩
  · rintro ⟨hmark, horder⟩
    exact ⟨(holds_of_wrap h horder).1.roundTrips hmark, bound_of_wrap h hmark,
      fun _ hold => hold.2.roundTrips hmark⟩

end

namespace Sample

/-- A key, as what it was derived from. -/
abbrev Key := Bool × JsText × List ℕ × List ℕ

def numbers (bytes : Bytes) : List ℕ := bytes.map UInt8.toNat

theorem numbers_inj {bytes bytes' : Bytes} (h : numbers bytes = numbers bytes') : bytes = bytes' :=
  List.map_injective_iff.2 (fun _ _ => UInt8.toNat_inj.1) h

/-- The bytes of a ciphertext count what is sealed. -/
def encrypt (k : Key) (iv : Bytes) (aad : JsText) (bytes : Bytes) : Bytes :=
  List.replicate (Encodable.encode (k, numbers iv, aad, numbers bytes) + 1) 0

theorem encrypt_inj (k k' : Key) (iv iv' : Bytes) (aad aad' : JsText) (bytes bytes' : Bytes)
    (h : encrypt k iv aad bytes = encrypt k' iv' aad' bytes') :
    k = k' ∧ iv = iv' ∧ aad = aad' ∧ bytes = bytes' := by
  have hlen := congrArg List.length h
  rw [encrypt, encrypt, List.length_replicate, List.length_replicate] at hlen
  have heq := Encodable.encode_injective (Nat.succ_injective hlen)
  simp only [Prod.mk.injEq] at heq
  exact ⟨heq.1, numbers_inj heq.2.1, heq.2.2.1, numbers_inj heq.2.2.2⟩

def decrypt (k : Key) (iv : Bytes) (aad : JsText) (cipher : Bytes) : Option Bytes :=
  ((Encodable.decode (cipher.length - 1) : Option (Key × List ℕ × JsText × List ℕ)).map
    fun x => x.2.2.2.map UInt8.ofNat).filter fun bytes => encrypt k iv aad bytes = cipher

theorem ofNat_numbers (bytes : Bytes) : (numbers bytes).map UInt8.ofNat = bytes := by
  rw [numbers, List.map_map]
  exact (List.map_congr_left fun b _ => UInt8.ofNat_toNat).trans (List.map_id _)

theorem decrypt_encrypt (k : Key) (iv : Bytes) (aad : JsText) (bytes : Bytes) :
    decrypt k iv aad (encrypt k iv aad bytes) = some bytes := by
  have hlen : (encrypt k iv aad bytes).length - 1 =
      Encodable.encode (k, numbers iv, aad, numbers bytes) := by
    rw [encrypt, List.length_replicate, Nat.add_sub_cancel]
  rw [decrypt, hlen, Encodable.encodek, Option.map_some, ofNat_numbers, Option.filter_some,
    if_pos (decide_eq_true rfl)]

/-- Argon2id refuses parameters that are too small. -/
def argon2 (pin : JsText) (salt : Bytes) (params : Argon2Params ℕ) : Option Key :=
  if 1 ≤ params.t ∧ 1 ≤ params.p ∧ 8 * params.p ≤ params.m then
    some (true, pin, numbers salt, [params.t, params.m, params.p])
  else none

def crypto : VaultCrypto ℕ Key where
  argon2 := argon2
  pbkdf2 pin salt n := if n = 0 then none else some (false, pin, numbers salt, [n])
  encrypt := encrypt
  decrypt := decrypt
  replaced _ := "\uFFFD"
  argon2_default _ _ _ := rfl
  argon2_inj pin salt salt' params params' k h h' := by
    obtain ⟨-, hk⟩ := Option.ite_none_right_eq_some.1 h
    obtain ⟨-, hk'⟩ := Option.ite_none_right_eq_some.1 h'
    have heq := (Option.some.inj hk).trans (Option.some.inj hk').symm
    simp only [Prod.mk.injEq, List.cons.injEq, and_true, true_and] at heq
    obtain ⟨hsalt, ht, hm, hp⟩ := heq
    refine ⟨numbers_inj hsalt, ?_⟩
    cases params
    cases params'
    simp_all
  argon2_ne_pbkdf2 pin salt salt' params n k h h' := by
    obtain ⟨-, hk⟩ := Option.ite_none_right_eq_some.1 h
    obtain ⟨-, hk'⟩ := Option.ite_none_left_eq_some.1 h'
    exact absurd ((Option.some.inj hk).trans (Option.some.inj hk').symm) (by simp)
  decrypt_encrypt := decrypt_encrypt
  encrypt_of_decrypt k iv aad cipher bytes h := by
    exact (of_decide_eq_true (Option.filter_eq_some_iff.1 h).2).symm
  encrypt_inj := encrypt_inj
  encrypt_ne_nil k iv aad bytes := by
    rw [encrypt, List.replicate_succ]
    exact List.cons_ne_nil _ _

def draws : Draws := ⟨List.replicate 16 0, List.replicate 12 0, rfl, rfl⟩

end Sample

open Sample

theorem keeps_iff_sample : ∃ blob,
    wrapPrivateJwkWithPin crypto draws "private" [0x31] ARGON2_DEFAULT_PARAMS = some blob ∧
      RoundTrips crypto [0x31] "private" blob := by
  have hwrap : ∃ blob,
      wrapPrivateJwkWithPin crypto draws "private" [0x31] ARGON2_DEFAULT_PARAMS = some blob :=
    ⟨_, rfl⟩
  obtain ⟨blob, hwrap⟩ := hwrap
  exact ⟨blob, hwrap, ((keeps_iff hwrap).2 ⟨by decide, rfl⟩).1⟩

/-- A text that begins with a byte order mark comes out without it. -/
theorem mark_lost : ∃ blob,
    wrapPrivateJwkWithPin crypto draws "\uFEFFprivate" [0x31] ARGON2_DEFAULT_PARAMS = some blob ∧
      unwrapPrivateJwkWithPin crypto blob [0x31] = some "private" ∧
      ¬RoundTrips crypto [0x31] "\uFEFFprivate" blob := by
  have hwrap : ∃ blob,
      wrapPrivateJwkWithPin crypto draws "\uFEFFprivate" [0x31] ARGON2_DEFAULT_PARAMS =
        some blob :=
    ⟨_, rfl⟩
  obtain ⟨blob, hwrap⟩ := hwrap
  have hunwrap : unwrapPrivateJwkWithPin crypto blob [0x31] = some "private" := by
    rw [unwrap_of_holds (holds_of_wrap hwrap rfl).1]
    decide
  refine ⟨blob, hwrap, hunwrap, fun hround => ?_⟩
  exact absurd ((hround []).symm.trans hunwrap) (by decide)

end OneToThree.Vault
