import OneToThree.Lib.JsonMembers

/-!
# The pin of a public key

A peer's key is pinned by a hash over its JWK, with the members of all objects sorted. The hash
speaks of the whole JWK, not of the key that it stands for: two texts of one key have one hash
exactly if they have the same members. The private JWK without its secret member is such another
text, since it keeps the usages of the private key.

* `WebCrypto`: how a JWK is imported, and the digest.
* `pin_iff`: when the pins of two texts are as the keys are.
-/

namespace OneToThree.PinnedKey

open JsText JsonUnits

variable {N : Type} [Number N]

/-! ## Canonical texts -/

section
variable (C : Collation)

mutual

def stableStringify : Value N → JsText
  | .arr xs => 0x5B :: (join (stableElems xs) ++ [0x5D])
  | .obj fields =>
    let keys := C.sortMembers (stableFields fields)
    0x7B :: (join (keys.map fun m => quote m.1 ++ 0x3A :: m.2) ++ [0x7D])
  | x => stringify x

def stableElems : List (Value N) → List JsText
  | [] => []
  | x :: xs => stableStringify x :: stableElems xs

def stableFields : List (JsText × Value N) → List (JsText × JsText)
  | [] => []
  | (key, x) :: fields => (key, stableStringify x) :: stableFields fields

end

end

/-! ## Keys -/

inductive EcdhCurve
  | p256
  | p384
  deriving DecidableEq

/-- How the browser imports a JWK, which it reads member by member, and SHA-256 of a text, in
    hexadecimal, that no two texts of values share. -/
structure WebCrypto (N K D : Type) [Number N] (C : Collation) where
  importKey : EcdhCurve → Value N → Option K
  importKey_reorders : ∀ curve x y, C.Reorders x y → importKey curve x = importKey curve y
  digest : JsText → D
  digest_inj : ∀ x y : Value N, digest (stringify x) = digest (stringify y) →
    stringify x = stringify y

/-- The curve of a JWK, P-256 where it does not say. -/
def namedCurveFromJwk (jwk : Value N) : EcdhCurve :=
  if (jwk.get? "crv").bind Value.text? = some (ascii "P-384") then .p384 else .p256

def isNull : Value N → Bool
  | .null => true
  | _ => false

/-- The public half of a private JWK, without `d`. -/
def exportEcdhPublicJwkFromPrivateKeyString (N : Type) [Number N] (jwkString : JsText) :
    Option JsText :=
  (parseOwn (N := N) jwkString).bind fun
    | .obj fields =>
      let pub := Value.obj (fields.filter (·.1 ≠ ascii "d"))
      if (pub.get? "x").any Value.isTruthy && (pub.get? "y").any Value.isTruthy &&
          (pub.get? "kty").bind Value.text? = some (ascii "EC") then some (stringify pub)
      else none
    | _ => none

section
variable {K D : Type} {C : Collation} (W : WebCrypto N K D C)

/-- Where the text is no JSON, or the browser refuses the key, there is none. -/
def importEcdhPublicKey (jwkString : JsText) : Option K :=
  (parseOwn jwkString).bind fun jwk =>
    if isNull jwk then none else W.importKey (namedCurveFromJwk jwk) jwk

def hashPublicKeyJwk (publicKeyJwk : Value N) : D := W.digest (stableStringify C publicKeyJwk)

/-- The hash of the text of a key, as it is pinned and compared. -/
def pin (jwkString : JsText) : Option D := (parseOwn jwkString).map (hashPublicKeyJwk W)

/-- The check of a received key against the pin of the peer. -/
def assertTrust [DecidableEq D] (pinned : D) (receivedJwk : JsText) : Bool :=
  pin W receivedJwk = some pinned

end

/-- The texts have the same members, whatever their order; names that the collation does not tell
    apart come in one order. -/
def SameMembers (N : Type) [Number N] (C : Collation) (t t' : JsText) : Prop :=
  ∃ x y : Value N, parseOwn t = some x ∧ parseOwn t' = some y ∧ C.Reorders x y

/-! ## The canonical text is that of the sorted value -/

section
variable {C : Collation}

theorem join_stringifyElems (x : Value N) (xs : List (Value N)) :
    join ((x :: xs).map stringify) ++ [0x5D] = stringify x ++ stringifyElems xs := by
  induction xs generalizing x with
  | nil => rw [List.map_singleton, join, stringifyElems]
  | cons y ys ih =>
    have htail := ih y
    rw [List.map_cons] at htail
    rw [List.map_cons, List.map_cons, join, List.append_assoc, List.cons_append, htail,
      stringifyElems]
    exact List.cons_ne_nil _ _

theorem stringify_arr (xs : List (Value N)) :
    stringify (.arr xs) = 0x5B :: (join (xs.map stringify) ++ [0x5D]) := by
  cases xs with
  | nil => rw [stringify]; rfl
  | cons x xs => rw [stringify, join_stringifyElems]

theorem join_stringifyFields (m : JsText × Value N) (fields : List (JsText × Value N)) :
    join ((m :: fields).map fun m => quote m.1 ++ 0x3A :: stringify m.2) ++ [0x7D] =
      quote m.1 ++ 0x3A :: (stringify m.2 ++ stringifyFields fields) := by
  induction fields generalizing m with
  | nil => simp [join, stringifyFields]
  | cons l fields ih =>
    have htail := ih l
    rw [List.map_cons] at htail
    rw [List.map_cons, List.map_cons, join, List.append_assoc, List.cons_append, htail,
      List.append_assoc, List.cons_append, stringifyFields]
    exact List.cons_ne_nil _ _

theorem stringify_obj_join (fields : List (JsText × Value N)) :
    stringify (.obj fields) =
      0x7B :: (join (fields.map fun m => quote m.1 ++ 0x3A :: stringify m.2) ++ [0x7D]) := by
  cases fields with
  | nil => rw [stringify]; rfl
  | cons m fields => rw [stringify, join_stringifyFields]

theorem sortMembers_map {A B : Type} (f : A → B) (members : List (JsText × A)) :
    C.sortMembers (members.map fun m => (m.1, f m.2)) =
      (C.sortMembers members).map fun m => (m.1, f m.2) :=
  (List.map_insertionSort _ _ (fun m : JsText × A => (m.1, f m.2)) members
    fun _ _ _ _ => Iff.rfl).symm

mutual

theorem stableStringify_eq : ∀ x : Value N, stableStringify C x = stringify (C.sorted x)
  | .null => by simp only [stableStringify, Collation.sorted]
  | .bool _ => by simp only [stableStringify, Collation.sorted]
  | .num _ => by simp only [stableStringify, Collation.sorted]
  | .str _ => by simp only [stableStringify, Collation.sorted]
  | .arr xs => by
    rw [stableStringify, Collation.sorted, stringify_arr, stableElems_sorted xs]
  | .obj fields => by
    rw [stableStringify, Collation.sorted, stringify_obj_join, stableFields_sorted fields,
      sortMembers_map, List.map_map]
    rfl

theorem stableElems_sorted : ∀ xs : List (Value N),
    stableElems C xs = (C.sortedElems xs).map stringify
  | [] => rfl
  | x :: xs => by
    rw [stableElems, Collation.sortedElems, List.map_cons, stableStringify_eq x,
      stableElems_sorted xs]

theorem stableFields_sorted : ∀ fields : List (JsText × Value N),
    stableFields C fields = (C.sortedFields fields).map fun m => (m.1, stringify m.2)
  | [] => rfl
  | (key, x) :: fields => by
    rw [stableFields, Collation.sortedFields, List.map_cons, stableStringify_eq x,
      stableFields_sorted fields]

end

end

/-! ## Pins -/

section
variable {K D : Type} {C : Collation} {W : WebCrypto N K D C} {t t' : JsText} {k k' : K}

/-- A hash is of the members, and not of their order. -/
theorem hashPublicKeyJwk_eq_iff {x y : Value N} :
    hashPublicKeyJwk W x = hashPublicKeyJwk W y ↔ C.Reorders x y := by
  rw [Collation.reorders_iff, hashPublicKeyJwk, hashPublicKeyJwk, stableStringify_eq,
    stableStringify_eq]
  exact ⟨fun h => stringify_inj (W.digest_inj _ _ h), fun h => by rw [h]⟩

theorem importEcdhPublicKey_eq_some (h : importEcdhPublicKey W t = some k) :
    ∃ jwk, parseOwn t = some jwk ∧ W.importKey (namedCurveFromJwk jwk) jwk = some k := by
  obtain ⟨jwk, hjwk, h⟩ := Option.bind_eq_some_iff.1 h
  split_ifs at h
  exact ⟨jwk, hjwk, h⟩

/-- The same members are the same key. -/
theorem key_eq_of_sameMembers (h : importEcdhPublicKey W t = some k)
    (h' : importEcdhPublicKey W t' = some k') (hsame : SameMembers N C t t') : k = k' := by
  obtain ⟨x, hx, hk⟩ := importEcdhPublicKey_eq_some h
  obtain ⟨y, hy, hk'⟩ := importEcdhPublicKey_eq_some h'
  obtain ⟨x', y', hx', hy', hreorders⟩ := hsame
  obtain rfl := Option.some.inj (hx.symm.trans hx')
  obtain rfl := Option.some.inj (hy.symm.trans hy')
  have hcurve : namedCurveFromJwk x = namedCurveFromJwk y := by
    rw [namedCurveFromJwk, namedCurveFromJwk, (hreorders.text?_get? "crv").2]
  rw [hcurve, W.importKey_reorders _ x y hreorders] at hk
  exact Option.some.inj (hk.symm.trans hk')

theorem pin_eq_iff (h : importEcdhPublicKey W t = some k)
    (h' : importEcdhPublicKey W t' = some k') : pin W t = pin W t' ↔ SameMembers N C t t' := by
  obtain ⟨x, hx, -⟩ := importEcdhPublicKey_eq_some h
  obtain ⟨y, hy, -⟩ := importEcdhPublicKey_eq_some h'
  rw [pin, pin, hx, hy, Option.map_some, Option.map_some, Option.some.injEq,
    hashPublicKeyJwk_eq_iff]
  constructor
  · exact fun hxy => ⟨x, y, hx, hy, hxy⟩
  · rintro ⟨x', y', hx', hy', hxy⟩
    obtain rfl := Option.some.inj (hx.symm.trans hx')
    obtain rfl := Option.some.inj (hy.symm.trans hy')
    exact hxy

/-- Pins are as the keys are, exactly where a key is not written with other members. -/
theorem pin_iff (h : importEcdhPublicKey W t = some k) (h' : importEcdhPublicKey W t' = some k') :
    (pin W t = pin W t' ↔ k = k') ↔ (k = k' → SameMembers N C t t') := by
  rw [pin_eq_iff h h']
  exact ⟨fun hiff => hiff.2, fun himp => ⟨key_eq_of_sameMembers h h', himp⟩⟩

end

namespace Sample

/-- The order of the dictionary. -/
def le : JsText → JsText → Bool
  | [], _ => true
  | _ :: _, [] => false
  | u :: t, v :: t' => u < v || (u = v && le t t')

theorem le_trans (a b c : JsText) (h : le a b = true) (h' : le b c = true) : le a c = true := by
  induction a generalizing b c with
  | nil => rfl
  | cons u t ih =>
    cases b with
    | nil => exact absurd h Bool.false_ne_true
    | cons v t' =>
      cases c with
      | nil => exact absurd h' Bool.false_ne_true
      | cons w t'' =>
        simp only [le, Bool.or_eq_true, Bool.and_eq_true, decide_eq_true_eq] at h h' ⊢
        rcases h with h | ⟨rfl, h⟩ <;> rcases h' with h' | ⟨rfl, h'⟩
        · exact .inl (Nat.lt_trans h h')
        · exact .inl h
        · exact .inl h'
        · exact .inr ⟨rfl, ih t' t'' h h'⟩

theorem le_total (a b : JsText) : (le a b || le b a) = true := by
  induction a generalizing b with
  | nil => rfl
  | cons u t ih =>
    cases b with
    | nil => rfl
    | cons v t' =>
      have htail := ih t'
      simp only [le, Bool.or_eq_true, Bool.and_eq_true, decide_eq_true_eq] at htail ⊢
      rcases Nat.lt_trichotomy u v with h | rfl | h
      · exact .inl (.inl h)
      · exact htail.imp (fun h => .inr ⟨rfl, h⟩) fun h => .inr ⟨rfl, h⟩
      · exact .inr (.inl h)

def collation : Collation where
  le := le
  trans := le_trans
  total := le_total

def importKey (jwk : Value ℕ) : Option (List JsText) :=
  ["kty", "crv", "x", "y"].mapM fun key => (jwk.get? key).bind Value.text?

def webCrypto : WebCrypto ℕ (List JsText) JsText collation where
  importKey _ := importKey
  importKey_reorders _ x y h := by
    simp only [importKey, List.mapM_cons, List.mapM_nil, (h.text?_get? _).2]
  digest := id
  digest_inj _ _ h := h

def text (s : String) : Value ℕ := .str (ascii s)

/-- What stands in every text of the key. -/
def members (keyOps : List (Value ℕ)) : List (JsText × Value ℕ) :=
  [(ascii "crv", text "P-256"), (ascii "ext", .bool true), (ascii "key_ops", .arr keyOps),
    (ascii "kty", text "EC"), (ascii "x", text "Ag"), (ascii "y", text "Aw")]

/-- As the browser exports a public key. -/
def publicJwk : JsText := stringify (.obj (members []))

/-- As it exports the private one. -/
def privateJwk : JsText :=
  stringify (.obj ((ascii "d", text "AQ") :: members [text "deriveKey", text "deriveBits"]))

theorem own_members (keyOps : List (Value ℕ)) (h : ownElems keyOps = keyOps) :
    (Value.obj (members keyOps)).own = .obj (members keyOps) := by
  have : ∀ s ∈ ["crv", "ext", "key_ops", "kty", "x", "y"], arrayIndex (ascii s) = none := by decide
  simp [members, Value.own, ownFields, ownMembers, setMember, ascii_inj, text, h, this]

theorem parseOwn_stringify {x : Value ℕ} (h : x.own = x) : parseOwn (stringify x) = some x := by
  rw [parseOwn, parse_stringify, Option.map_some, h]

theorem parseOwn_members {keyOps : List (Value ℕ)} (h : ownElems keyOps = keyOps) :
    parseOwn (stringify (.obj (members keyOps))) = some (.obj (members keyOps)) :=
  parseOwn_stringify (own_members keyOps h)

/-- The key is read of the same members, whatever the usages are. -/
theorem import_members {keyOps : List (Value ℕ)} (h : ownElems keyOps = keyOps) :
    importEcdhPublicKey webCrypto (stringify (.obj (members keyOps))) =
      some [ascii "EC", ascii "P-256", ascii "Ag", ascii "Aw"] := by
  rw [importEcdhPublicKey, parseOwn_members h, Option.bind_some]
  simp [isNull, webCrypto, importKey, members, Value.get?, field, ascii_inj, text, Value.text?]

/-- The members of the public key in another order. -/
def reorderedJwk : JsText :=
  stringify (.obj ((ascii "ext", .bool true) :: (ascii "crv", text "P-256") ::
    (members []).drop 2))

theorem parseOwn_reorderedJwk : parseOwn reorderedJwk = some (.obj ((ascii "ext", .bool true) ::
    (ascii "crv", text "P-256") :: (members []).drop 2)) := by
  refine parseOwn_stringify ?_
  have hnone : ∀ s ∈ ["crv", "ext", "key_ops", "kty", "x", "y"], arrayIndex (ascii s) = none := by
    decide
  simp [members, Value.own, ownElems, ownFields, ownMembers, setMember, ascii_inj, text, hnone]

theorem sameMembers_reorderedJwk : SameMembers ℕ collation publicJwk reorderedJwk := by
  refine ⟨_, _, parseOwn_members rfl, parseOwn_reorderedJwk, ?_⟩
  refine .swap [] ((members []).drop 2) ?_
  rw [Collation.tellsApart]
  decide

theorem import_reorderedJwk : importEcdhPublicKey webCrypto reorderedJwk =
    some [ascii "EC", ascii "P-256", ascii "Ag", ascii "Aw"] := by
  rw [importEcdhPublicKey, parseOwn_reorderedJwk, Option.bind_some]
  simp [isNull, webCrypto, importKey, members, Value.get?, field, ascii_inj, text, Value.text?]

/-- What is published of the private key keeps the usages of it. -/
theorem export_privateJwk : exportEcdhPublicJwkFromPrivateKeyString ℕ privateJwk =
    some (stringify (.obj (members [text "deriveKey", text "deriveBits"]))) := by
  have hparse : parseOwn privateJwk = some (Value.obj ((ascii "d", text "AQ") ::
      members [text "deriveKey", text "deriveBits"])) := by
    refine parseOwn_stringify ?_
    have hnone : ∀ s ∈ ["d", "crv", "ext", "key_ops", "kty", "x", "y"],
        arrayIndex (ascii s) = none := by decide
    simp [members, Value.own, ownElems, ownFields, ownMembers, setMember, ascii_inj, text, hnone]
  rw [exportEcdhPublicJwkFromPrivateKeyString, hparse, Option.bind_some]
  simp [members, Value.get?, field, text, Value.text?, Value.isTruthy, ascii]

end Sample

open Sample

theorem pin_iff_reordered : pin webCrypto publicJwk = pin webCrypto reorderedJwk :=
  ((pin_iff (import_members rfl) import_reorderedJwk).2 fun _ => sameMembers_reorderedJwk).2 rfl

/-- The key that is published again, of the private key, is the same one with another pin. -/
theorem republished_pin_ne : ∃ republished k,
    exportEcdhPublicJwkFromPrivateKeyString ℕ privateJwk = some republished ∧
      importEcdhPublicKey webCrypto publicJwk = some k ∧
      importEcdhPublicKey webCrypto republished = some k ∧
      pin webCrypto publicJwk ≠ pin webCrypto republished := by
  refine ⟨_, _, export_privateJwk, import_members rfl, import_members rfl, fun hpin => ?_⟩
  obtain ⟨x, y, hx, hy, hreorders⟩ :=
    (pin_eq_iff (import_members rfl) (import_members rfl)).1 hpin
  obtain rfl := Option.some.inj ((parseOwn_members rfl).symm.trans hx)
  obtain rfl := Option.some.inj ((parseOwn_members rfl).symm.trans hy)
  have hsorted := hreorders.sorted_eq
  rw [Collation.sorted, Collation.sorted, Value.obj.injEq] at hsorted
  have hmem : (ascii "key_ops", Value.arr (N := ℕ) []) ∈ collation.sortMembers
      (collation.sortedFields (members [text "deriveKey", text "deriveBits"])) := by
    rw [← hsorted, Collation.sortMembers, List.mem_insertionSort]
    simp [members, Collation.sortedFields, Collation.sorted, Collation.sortedElems]
  rw [Collation.sortMembers, List.mem_insertionSort] at hmem
  simp [members, Collation.sortedFields, Collation.sorted, Collation.sortedElems, ascii_inj, text]
    at hmem

end OneToThree.PinnedKey
