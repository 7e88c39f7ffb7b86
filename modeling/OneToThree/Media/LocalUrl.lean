import OneToThree.Lib.PercentText
import OneToThree.Lib.SplitText
import Mathlib.Data.Rat.Floor

/-!
# Local media URLs

Without an object store, the server hands out URLs of its own. Each is signed for a method, a
bucket, a key, a time and, if it is for an upload, a content type. These are joined by line breaks,
and the digest of that is the signature.

A URL is a text. The route cuts it into bucket, key and query, undoes the percent encoding, and
verifies what it finds.

* `canonical_inj`: what is signed says what for, as long as there is no line break in the bucket.
* `capability_of_sign`: a signed URL verifies until its time is over, and its signature for nothing
  else, however that is encoded.
-/

namespace OneToThree.Media.LocalUrl

open PercentText (encode encodePath decodeText)
open SplitText (append_cons_inj_left append_cons_inj_right)

abbrev Text := List Char

inductive MediaUrlMethod
  | GET
  | PUT
  deriving DecidableEq

def MediaUrlMethod.text : MediaUrlMethod → Text
  | .GET => ['G', 'E', 'T']
  | .PUT => ['P', 'U', 'T']

/-- What a URL is signed for. -/
structure Capability where
  method : MediaUrlMethod
  bucket : String
  key : String
  exp : ℤ
  contentType : Text
  deriving DecidableEq

def maxSafeInteger : ℤ := 2 ^ 53 - 1

def isSafeInteger (n : ℤ) : Bool := -maxSafeInteger ≤ n && n ≤ maxSafeInteger

/-- A digit, or one of the first letters, in lower case. -/
def isHexDigit (c : Char) : Bool :=
  (0x30 ≤ c.toNat && c.toNat ≤ 0x39) || (0x61 ≤ c.toNat && c.toNat ≤ 0x66)

/-- `/^[0-9a-f]{64}$/` -/
def isDigest (t : Text) : Bool := t.length = 64 && t.all isHexDigit

/-- `[a-z0-9]` -/
def isTypeStart (c : Char) : Bool :=
  (0x61 ≤ c.toNat && c.toNat ≤ 0x7A) || (0x30 ≤ c.toNat && c.toNat ≤ 0x39)

/-- `[a-z0-9.+-]` -/
def isTypeChar (c : Char) : Bool := isTypeStart c || c = '.' || c = '+' || c = '-'

/-- `[a-z0-9][a-z0-9.+-]*` -/
def isTypeName (t : Text) : Bool := t.head?.any isTypeStart && t.all isTypeChar

/-- A type and a subtype. -/
def isMediaType (t : Text) : Bool :=
  (SplitText.cut '/' t).any fun names => isTypeName names.1 && isTypeName names.2

/-- What the language and the packages do. -/
structure Platform where
  /-- The digest of a text under the secret of the server. -/
  hmac : Text → Text
  isDigest_hmac : ∀ t, isDigest (hmac t) = true
  /-- `String(n)` -/
  writeNumber : ℤ → Text
  /-- The safe integer that `Number(t)` is, if it is one. -/
  readInteger : Text → Option ℤ
  readInteger_write : ∀ n, readInteger (writeNumber n) = if isSafeInteger n then some n else none
  writeNumber_inj : ∀ m n, writeNumber m = writeNumber n → m = n
  writeNumber_line : ∀ n, '\n' ∉ writeNumber n
  toLowerCase : Text → Text
  toLowerCase_type : ∀ t, (∀ c ∈ t, isTypeChar c = true ∨ c = '/') → toLowerCase t = t
  /-- `URLSearchParams`, and what the server makes of a query. -/
  writeQuery : List (String × Text) → Text
  readQuery : Text → (name : String) → Option Text
  readQuery_write : ∀ params, (params.map Prod.fst).Nodup → ∀ name,
    readQuery (writeQuery params) name = params.lookup name

variable (N : Platform)

/-! ## Signing -/

def canonical (p : Capability) : Text :=
  ['\n'].intercalate [['v', '1'], p.method.text, p.bucket.toList, p.key.toList, N.writeNumber p.exp,
    p.contentType]

def sign (p : Capability) : Text := N.hmac (canonical N p)

def trim (t : Text) : Text :=
  ((t.dropWhile fun c => JsText.isSpace c.toNat).reverse.dropWhile fun c =>
    JsText.isSpace c.toNat).reverse

/-- The type, less its parameters; or nothing. -/
def baseContentType (raw : Text) : Text :=
  let first := N.toLowerCase (trim ((raw.splitOn ';').headD []))
  if isMediaType first then first else []

structure SignRequest where
  method : MediaUrlMethod
  bucket : String
  key : String
  /-- A number, if it is finite. -/
  expiresInSeconds : Option ℚ
  contentType : Option Text

/-- `Math.trunc` -/
def trunc (q : ℚ) : ℤ := if 0 ≤ q then ⌊q⌋ else ⌈q⌉

/-- `encodeURIComponent` leaves letters, digits and some marks. -/
def unreserved (b : UInt8) : Bool :=
  (0x30 ≤ b.toNat && b.toNat ≤ 0x39) || (0x41 ≤ b.toNat && b.toNat ≤ 0x5A) ||
    (0x61 ≤ b.toNat && b.toNat ≤ 0x7A) ||
    b.toNat ∈ [0x2D, 0x5F, 0x2E, 0x21, 0x7E, 0x2A, 0x27, 0x28, 0x29]

def localMediaPath : Text := ['/', 'm', 'e', 'd', 'i', 'a', '/', 'o']

def queryParams (p : Capability) : List (String × Text) :=
  ("exp", N.writeNumber p.exp) ::
    ((if p.contentType ≠ [] then [("ct", p.contentType)] else []) ++ [("sig", sign N p)])

/-- The URL of a capability, from the path on. -/
def urlOf (p : Capability) : Text :=
  localMediaPath ++ '/' :: (encode unreserved (TextBytes.encodeText p.bucket) ++
    '/' :: (encodePath unreserved p.key ++ '?' :: N.writeQuery (queryParams N p)))

/-- What a request is signed for. -/
def SignRequest.capability (p : SignRequest) (exp : ℤ) : Capability where
  method := p.method
  bucket := p.bucket
  key := p.key
  exp := exp
  contentType :=
    match p.method with
    | .PUT => baseContentType N (p.contentType.getD [])
    | .GET => []

def signLocalMediaUrl (now : ℤ) (p : SignRequest) : Except String Text :=
  match p.expiresInSeconds with
  | none => .error "signLocalMediaUrl: expiresInSeconds must be finite"
  | some expiresInSeconds =>
    let cap := p.capability N (now + trunc expiresInSeconds)
    if p.method = .PUT ∧ cap.contentType = [] then
      .error "signLocalMediaUrl: PUT requires a valid content type"
    else .ok (urlOf N cap)

/-! ## Verifying -/

inductive Reason
  | BAD_SIGNATURE
  | EXPIRED
  | MALFORMED
  deriving DecidableEq

inductive VerifyResult
  | ok (contentType : Text)
  | failed (reason : Reason)
  deriving DecidableEq

def clockSkew : ℤ := 60

def verifyLocalMediaUrl (method : MediaUrlMethod) (bucket key : String) (exp contentType sig :
    Option Text) (now : ℤ) : VerifyResult :=
  let sig := sig.getD []
  if !isDigest sig then .failed .MALFORMED
  else
    match exp.bind N.readInteger with
    | none => .failed .MALFORMED
    | some exp =>
      if exp ≤ 0 then .failed .MALFORMED
      else
        let given := contentType.getD []
        let contentType := if given ≠ [] then baseContentType N given else []
        if given ≠ [] ∧ contentType = [] then .failed .MALFORMED
        else if method = .GET ∧ contentType ≠ [] then .failed .MALFORMED
        else if method = .PUT ∧ contentType = [] then .failed .MALFORMED
        else if sign N ⟨method, bucket, key, exp, contentType⟩ ≠ sig then .failed .BAD_SIGNATURE
        else if exp < now - clockSkew then .failed .EXPIRED
        else .ok contentType

/-- What the route finds in a URL. -/
structure MediaRequest where
  bucket : String
  key : String
  exp : Option Text
  ct : Option Text
  sig : Option Text

/-- The route `/o/:bucket/*`. -/
def readUrl (url : Text) : Option MediaRequest :=
  if (localMediaPath ++ ['/']).isPrefixOf url then
    let rest := url.drop (localMediaPath.length + 1)
    let parts := (SplitText.cut '?' rest).getD (rest, [])
    let query := N.readQuery parts.2
    (SplitText.cut '/' parts.1).bind fun path =>
      (decodeText path.1).bind fun bucket => (decodeText path.2).map fun key =>
        ⟨bucket, key, query "exp", query "ct", query "sig"⟩
  else none

/-- A download says nothing about a content type. -/
def MediaRequest.contentType (r : MediaRequest) : MediaUrlMethod → Option Text
  | .GET => none
  | .PUT => r.ct

def MediaRequest.verify (r : MediaRequest) (method : MediaUrlMethod) (now : ℤ) : VerifyResult :=
  verifyLocalMediaUrl N method r.bucket r.key r.exp (r.contentType method) r.sig now

/-! ## What is signed -/

variable {N}

theorem canonical_eq (p : Capability) : canonical N p = ['v', '1'] ++ '\n' :: (p.method.text ++
    '\n' :: (p.bucket.toList ++ '\n' :: (p.key.toList ++ '\n' :: (N.writeNumber p.exp ++
      '\n' :: p.contentType)))) := by
  simp [canonical]

theorem text_line (method : MediaUrlMethod) : '\n' ∉ method.text := by
  cases method with
  | GET => decide
  | PUT => decide

theorem text_inj {method method' : MediaUrlMethod} (h : method.text = method'.text) :
    method = method' := by
  revert h
  cases method with
  | GET =>
    cases method' with
    | GET => exact fun _ => rfl
    | PUT => exact fun h => absurd h (by decide)
  | PUT =>
    cases method' with
    | GET => exact fun h => absurd h (by decide)
    | PUT => exact fun _ => rfl

/-- The key may have line breaks: the bucket ends at the first one after it, and the last two are
    before the time and the content type. -/
theorem canonical_inj {p p' : Capability} (hbucket : '\n' ∉ p.bucket.toList)
    (hbucket' : '\n' ∉ p'.bucket.toList) (htype : '\n' ∉ p.contentType)
    (htype' : '\n' ∉ p'.contentType) (h : canonical N p = canonical N p') : p = p' := by
  rw [canonical_eq, canonical_eq] at h
  have h := (List.cons.inj (List.append_cancel_left h)).2
  obtain ⟨hmethod, h⟩ := append_cons_inj_left (text_line _) (text_line _) h
  obtain ⟨hb, h⟩ := append_cons_inj_left hbucket hbucket' h
  rw [← List.cons_append, ← List.append_assoc, ← List.cons_append, ← List.append_assoc] at h
  obtain ⟨h, ht⟩ := append_cons_inj_right htype htype' h
  obtain ⟨hk, he⟩ := append_cons_inj_right (N.writeNumber_line _) (N.writeNumber_line _) h
  obtain ⟨method, bucket, key, exp, contentType⟩ := p
  obtain ⟨method', bucket', key', exp', contentType'⟩ := p'
  obtain rfl := text_inj hmethod
  obtain rfl := String.toList_inj.1 hb
  obtain rfl := String.toList_inj.1 hk
  obtain rfl := N.writeNumber_inj _ _ he
  obtain rfl := ht
  rfl

/-! ## Content types -/

theorem isMediaType_chars {t : Text} (h : isMediaType t = true) :
    ∀ c ∈ t, isTypeChar c = true ∨ c = '/' := by
  unfold isMediaType at h
  rw [Option.any_eq_true] at h
  obtain ⟨names, hcut, hnames⟩ := h
  rw [SplitText.eq_of_cut hcut]
  simp only [isTypeName, Bool.and_eq_true, List.all_eq_true] at hnames
  obtain ⟨⟨-, htype⟩, -, hsubtype⟩ := hnames
  intro c hc
  obtain hc | hc := List.mem_append.1 hc
  · exact .inl (htype c hc)
  · exact (List.mem_cons.1 hc).symm.imp_left (hsubtype c)

/-- The characters of media types are marks, digits and letters. -/
theorem isTypeChar_range {c : Char} (h : isTypeChar c = true ∨ c = '/') :
    0x2B ≤ c.toNat ∧ c.toNat ≠ 0x3B ∧ c.toNat ≤ 0x7A := by
  have hmarks : ('.'.toNat = 0x2E ∧ '+'.toNat = 0x2B) ∧ '-'.toNat = 0x2D ∧ '/'.toNat = 0x2F := by
    decide
  simp only [isTypeChar, isTypeStart, Bool.or_eq_true, Bool.and_eq_true, decide_eq_true_eq] at h
  obtain (((h | rfl) | rfl) | rfl) | rfl := h <;> omega

theorem isSpace_eq_false {n : ℕ} (h : 0x21 ≤ n) (h' : n ≤ 0x7E) : JsText.isSpace n = false := by
  simp only [JsText.isSpace, Bool.or_eq_false_iff, Bool.and_eq_false_iff, decide_eq_false_iff_not]
  omega

theorem dropWhile_eq_self {C : Type} {p : C → Bool} {t : List C} (h : ∀ c ∈ t, p c = false) :
    t.dropWhile p = t := by
  cases t with
  | nil => rfl
  | cons c t =>
    refine List.dropWhile_cons_of_neg ?_
    rw [h c List.mem_cons_self]
    exact Bool.false_ne_true

theorem trim_eq_self {t : Text} (h : ∀ c ∈ t, JsText.isSpace c.toNat = false) : trim t = t := by
  rw [trim, dropWhile_eq_self h, dropWhile_eq_self fun c hc => h c (List.mem_reverse.1 hc),
    List.reverse_reverse]

/-- A media type is its own type. -/
theorem baseContentType_of_isMediaType {t : Text} (h : isMediaType t = true) :
    baseContentType N t = t := by
  have hchars := isMediaType_chars h
  have hsplit : (t.splitOn ';').headD [] = t := by
    rw [List.splitOn_eq_singleton]
    · rfl
    · intro hmem
      exact (isTypeChar_range (hchars _ hmem)).2.1 rfl
  have htrim : trim t = t := by
    refine trim_eq_self fun c hc => ?_
    obtain ⟨hlow, -, hhigh⟩ := isTypeChar_range (hchars c hc)
    exact isSpace_eq_false (by omega) (by omega)
  simp only [baseContentType, hsplit, htrim, N.toLowerCase_type t hchars, h, if_true]

/-- The type of a text is nothing, or a media type. -/
theorem baseContentType_cases (raw : Text) :
    baseContentType N raw = [] ∨ isMediaType (baseContentType N raw) = true := by
  unfold baseContentType
  dsimp only
  split_ifs with h
  · exact .inr h
  · exact .inl rfl

theorem baseContentType_line (raw : Text) : '\n' ∉ baseContentType N raw := by
  obtain h | h := baseContentType_cases (N := N) raw
  · rw [h]
    exact List.not_mem_nil
  · intro hmem
    have hlow := (isTypeChar_range (isMediaType_chars h _ hmem)).1
    exact absurd hlow (by decide)

/-! ## URLs -/

theorem isPlain_unreserved : PercentText.IsPlain unreserved := by
  intro b hb
  simp [unreserved] at hb
  omega

theorem slash_not_mem : ∀ b, '/' ∉ PercentText.encodeByte unreserved b :=
  PercentText.not_mem_encodeByte isPlain_unreserved (by decide) (by decide) (by decide)

theorem question_not_mem : ∀ b, '?' ∉ PercentText.encodeByte unreserved b :=
  PercentText.not_mem_encodeByte isPlain_unreserved (by decide) (by decide) (by decide)

theorem nodup_queryParams (p : Capability) : ((queryParams N p).map Prod.fst).Nodup := by
  unfold queryParams
  split_ifs
  · simp
  · simp

/-- What the route finds in the URL of a capability. -/
def requestOf (N : Platform) (cap : Capability) : MediaRequest where
  bucket := cap.bucket
  key := cap.key
  exp := some (N.writeNumber cap.exp)
  ct := if cap.contentType ≠ [] then some cap.contentType else none
  sig := some (sign N cap)

/-- The route finds in a URL what it was made for. -/
theorem readUrl_urlOf (p : Capability) : readUrl N (urlOf N p) = some (requestOf N p) := by
  have hbucket := PercentText.not_mem_encode slash_not_mem (TextBytes.encodeText p.bucket)
  have hpath : '?' ∉ encode unreserved (TextBytes.encodeText p.bucket) ++
      '/' :: encodePath unreserved p.key := by
    rw [List.mem_append, List.mem_cons, not_or, not_or]
    exact ⟨PercentText.not_mem_encode question_not_mem _, by decide,
      PercentText.not_mem_encodePath (by decide) question_not_mem _⟩
  have hcut := SplitText.cut_append hpath (N.writeQuery (queryParams N p))
  have hquery := N.readQuery_write (queryParams N p) (nodup_queryParams p)
  have hstart : (localMediaPath ++ ['/']).isPrefixOf (urlOf N p) = true := by
    rw [List.isPrefixOf_iff_prefix]
    exact ⟨_, by rw [urlOf, List.append_assoc, List.singleton_append]⟩
  have hrest : (urlOf N p).drop (localMediaPath.length + 1) =
      (encode unreserved (TextBytes.encodeText p.bucket) ++ '/' :: encodePath unreserved p.key) ++
        '?' :: N.writeQuery (queryParams N p) := by
    rw [urlOf, List.append_assoc, List.cons_append]
    rfl
  unfold readUrl
  simp only [hstart, if_true, hrest, hcut, Option.getD_some, SplitText.cut_append hbucket,
    Option.bind_some, PercentText.decodeText_encodeText isPlain_unreserved,
    PercentText.decodeText_encodePath isPlain_unreserved, Option.map_some, hquery]
  unfold queryParams requestOf
  split_ifs
  · rfl
  · rfl

/-! ## Verification -/

/-- What a text for the content type stands for: nothing, if there is none. -/
def typeOf (N : Platform) (contentType : Option Text) : Text :=
  if contentType.getD [] ≠ [] then baseContentType N (contentType.getD []) else []

/-- What passes the verification. -/
theorem verify_eq_ok {method : MediaUrlMethod} {bucket key : String} {exp contentType sig :
    Option Text} {now : ℤ} {ct : Text} :
    verifyLocalMediaUrl N method bucket key exp contentType sig now = .ok ct ↔
      isDigest (sig.getD []) = true ∧ (∃ n, exp.bind N.readInteger = some n ∧ 0 < n ∧
        sign N ⟨method, bucket, key, n, ct⟩ = sig.getD [] ∧ now - clockSkew ≤ n) ∧
      ct = typeOf N contentType ∧ (contentType.getD [] ≠ [] → ct ≠ []) ∧
      (method = .GET → ct = []) ∧ (method = .PUT → ct ≠ []) := by
  unfold verifyLocalMediaUrl
  by_cases hsig : isDigest (sig.getD []) = true
  · cases hexp : exp.bind N.readInteger with
    | none => simp [hsig]
    | some n =>
      simp only [hsig, Bool.not_true, if_neg Bool.false_ne_true, Option.some.injEq, exists_eq_left',
        true_and]
      change (if n ≤ 0 then _ else if contentType.getD [] ≠ [] ∧ typeOf N contentType = [] then _
        else if method = .GET ∧ typeOf N contentType ≠ [] then _
        else if method = .PUT ∧ typeOf N contentType = [] then _
        else if sign N ⟨method, bucket, key, n, typeOf N contentType⟩ ≠ sig.getD [] then _
        else if n < now - clockSkew then _ else VerifyResult.ok (typeOf N contentType)) = _ ↔ _
      constructor
      · intro h
        split_ifs at h with hn hgiven hget hput hsign htime
        obtain rfl := VerifyResult.ok.inj h
        exact ⟨⟨not_le.1 hn, not_not.1 hsign, not_lt.1 htime⟩, rfl, fun hg ht => hgiven ⟨hg, ht⟩,
          fun hm => by_contra fun ht => hget ⟨hm, ht⟩, fun hm ht => hput ⟨hm, ht⟩⟩
      · rintro ⟨⟨hn, hsign, htime⟩, rfl, hgiven, hget, hput⟩
        rw [if_neg (not_le.2 hn), if_neg (not_and.2 hgiven),
          if_neg (fun h => h.2 (hget h.1)), if_neg (not_and.2 hput), if_neg (not_not.2 hsign),
          if_neg (not_lt.2 htime)]
  · simp [hsig]

variable (N) in
/-- What a URL is good for. -/
structure IsCapability (p : Capability) (url : Text) : Prop where
  /-- It verifies until its time is over, if that is a time. -/
  lives : ∃ r, readUrl N url = some r ∧ ∀ now ct, r.verify N p.method now = .ok ct ↔
    (0 < p.exp ∧ isSafeInteger p.exp = true ∧ now ≤ p.exp + clockSkew) ∧ ct = p.contentType
  /-- Nothing else is signed as it is. -/
  signed : ∀ p' : Capability, '\n' ∉ p'.bucket.toList → '\n' ∉ p'.contentType → p' ≠ p →
    canonical N p' ≠ canonical N p
  /-- Its signature is good for nothing else, whatever URL it is put in. -/
  only : ∀ url' r, readUrl N url' = some r → r.sig = some (sign N p) → '\n' ∉ r.bucket.toList →
    ∀ method now ct, r.verify N method now = .ok ct →
      method = p.method ∧ r.bucket = p.bucket ∧ r.key = p.key ∧
      r.exp.bind N.readInteger = some p.exp ∧ ct = p.contentType

theorem capability_line (p : SignRequest) (exp : ℤ) : '\n' ∉ (p.capability N exp).contentType := by
  unfold SignRequest.capability
  cases p.method with
  | GET => exact List.not_mem_nil
  | PUT => exact baseContentType_line _

theorem typeOf_line (contentType : Option Text) : '\n' ∉ typeOf N contentType := by
  unfold typeOf
  split_ifs
  · exact baseContentType_line _
  · exact List.not_mem_nil

/-- The content type of a signed URL is that of an upload. -/
theorem type_of_sign {p : SignRequest} {exp : ℤ}
    (h : ¬(p.method = .PUT ∧ (p.capability N exp).contentType = [])) :
    (p.method = .GET → (p.capability N exp).contentType = []) ∧
      (p.method = .PUT → isMediaType (p.capability N exp).contentType = true) := by
  unfold SignRequest.capability at h ⊢
  cases hmethod : p.method with
  | GET => exact ⟨fun _ => rfl, fun h => absurd h (by decide)⟩
  | PUT =>
    simp only [hmethod, true_and] at h
    exact ⟨fun h => absurd h (by decide), fun _ => (baseContentType_cases _).resolve_left h⟩

theorem isMediaType_ne_nil {t : Text} (h : isMediaType t = true) : t ≠ [] := by
  rintro rfl
  exact Bool.false_ne_true h

/-- The content type arrives as it was signed. -/
theorem contentType_requestOf {cap : Capability} (hget : cap.method = .GET → cap.contentType = [])
    (hput : cap.method = .PUT → isMediaType cap.contentType = true) :
    ((requestOf N cap).contentType cap.method).getD [] = cap.contentType ∧
      typeOf N ((requestOf N cap).contentType cap.method) = cap.contentType := by
  cases hmethod : cap.method with
  | GET =>
    rw [hget hmethod]
    exact ⟨rfl, rfl⟩
  | PUT =>
    have hct : (requestOf N cap).contentType .PUT = some cap.contentType :=
      if_pos (isMediaType_ne_nil (hput hmethod))
    rw [hct, typeOf, Option.getD_some, if_pos (isMediaType_ne_nil (hput hmethod)),
      baseContentType_of_isMediaType (hput hmethod)]
    exact ⟨rfl, rfl⟩

/-- It verifies until its time is over. -/
theorem verify_requestOf {cap : Capability} (hget : cap.method = .GET → cap.contentType = [])
    (hput : cap.method = .PUT → isMediaType cap.contentType = true) (now : ℤ) (ct : Text) :
    (requestOf N cap).verify N cap.method now = .ok ct ↔
      (0 < cap.exp ∧ isSafeInteger cap.exp = true ∧ now ≤ cap.exp + clockSkew) ∧
        ct = cap.contentType := by
  obtain ⟨hgiven, htype⟩ := contentType_requestOf (N := N) hget hput
  have hexp : (requestOf N cap).exp.bind N.readInteger =
      if isSafeInteger cap.exp then some cap.exp else none := N.readInteger_write cap.exp
  unfold MediaRequest.verify
  rw [verify_eq_ok, hgiven, htype, hexp]
  constructor
  · rintro ⟨-, ⟨n, hn, hpos, -, htime⟩, rfl, -⟩
    obtain ⟨hsafe, hn⟩ := Option.ite_none_right_eq_some.1 hn
    obtain rfl := Option.some.inj hn
    exact ⟨⟨hpos, hsafe, by omega⟩, rfl⟩
  · rintro ⟨⟨hpos, hsafe, htime⟩, rfl⟩
    exact ⟨N.isDigest_hmac _, ⟨cap.exp, by rw [if_pos hsafe], hpos, rfl, by omega⟩, rfl, id, hget,
      fun h => isMediaType_ne_nil (hput h)⟩

/-- A signed URL verifies until its time is over, and what it is signed for cannot be changed. -/
theorem capability_of_sign {p : SignRequest} {seconds : ℚ} (hp : p.expiresInSeconds = some seconds)
    {now : ℤ} {url : Text} (h : signLocalMediaUrl N now p = .ok url)
    (hbucket : '\n' ∉ p.bucket.toList)
    (hideal : ∀ t, N.hmac t = N.hmac (canonical N (p.capability N (now + trunc seconds))) →
      t = canonical N (p.capability N (now + trunc seconds))) :
    IsCapability N (p.capability N (now + trunc seconds)) url := by
  unfold signLocalMediaUrl at h
  rw [hp] at h
  dsimp only at h
  split_ifs at h with hnone
  obtain rfl := Except.ok.inj h
  obtain ⟨hget, hput⟩ := type_of_sign hnone
  refine ⟨⟨_, readUrl_urlOf _, fun now' ct => verify_requestOf hget hput now' ct⟩, ?_, ?_⟩
  · intro p' hbucket' htype' hne heq
    exact hne (canonical_inj hbucket' hbucket htype' (capability_line p _) heq)
  · intro url' r hurl hsig hbucket' method now' ct hverify
    unfold MediaRequest.verify at hverify
    rw [verify_eq_ok] at hverify
    obtain ⟨-, ⟨n, hn, -, hsign, -⟩, hct, -⟩ := hverify
    rw [hsig, Option.getD_some] at hsign
    have hcanonical := hideal _ hsign
    have hcap := canonical_inj hbucket' hbucket (hct ▸ typeOf_line _) (capability_line p _)
      hcanonical
    rw [← hcap]
    exact ⟨rfl, rfl, rfl, hn, rfl⟩

namespace Sample

def digits (n : ℕ) : Text := (JsonUnits.writeNat n).map Char.ofNat

def value (t : Text) : ℤ := ((JsonUnits.readNat (t.map Char.toNat)).getD 0 : ℕ)

def writeNumber (n : ℤ) : Text :=
  if 0 ≤ n then digits n.toNat else '-' :: digits (-n).toNat

def readNumber (t : Text) : ℤ := if t.head? = some '-' then -value t.tail else value t

theorem digits_chars (n : ℕ) : ∀ c ∈ digits n, c ≠ '-' ∧ c ≠ '\n' := by
  intro c hc
  obtain ⟨u, hu, rfl⟩ := List.mem_map.1 hc
  have hunits : ∀ u < 0x66, 0x30 ≤ u → Char.ofNat u ≠ '-' ∧ Char.ofNat u ≠ '\n' := by decide
  unfold JsonUnits.writeNat at hu
  split_ifs at hu with hzero
  · obtain rfl := List.mem_singleton.1 hu
    exact hunits _ (by decide) (by decide)
  · obtain ⟨d, hd, rfl⟩ := List.mem_map.1 hu
    have hlt := Nat.digits_lt_base (by decide) (List.mem_reverse.1 hd)
    exact hunits _ (by omega) (by omega)

theorem value_digits (n : ℕ) : value (digits n) = n := by
  have hmap : (digits n).map Char.toNat = JsonUnits.writeNat n := by
    rw [digits, List.map_map]
    conv_rhs => rw [← List.map_id (JsonUnits.writeNat n)]
    refine List.map_congr_left fun u hu => ?_
    have hunits : ∀ u < 0x66, (Char.ofNat u).toNat = u := by decide
    refine hunits u ?_
    have h := JsonUnits.Number.write_units n u hu
    omega
  rw [value, hmap, JsonUnits.readNat_writeNat, Option.getD_some]

theorem readNumber_writeNumber (n : ℤ) : readNumber (writeNumber n) = n := by
  unfold readNumber writeNumber
  split_ifs with hn hhead hhead
  · exact absurd rfl (digits_chars _ '-' (List.mem_of_head? hhead)).1
  · rw [value_digits]
    omega
  · rw [List.tail_cons, value_digits]
    omega
  · exact absurd rfl hhead

theorem mem_writeNumber {n : ℤ} {c : Char} (h : c ∈ writeNumber n) : c ≠ '\n' := by
  unfold writeNumber at h
  split_ifs at h
  · exact (digits_chars _ c h).2
  · obtain rfl | h := List.mem_cons.1 h
    · decide
    · exact (digits_chars _ c h).2

/-- A parameter, percent-encoded. -/
def writeParam (param : String × Text) : Text :=
  encode unreserved (TextBytes.encodeText param.1) ++
    '=' :: encode unreserved (TextBytes.encodeText (String.ofList param.2))

def readParam (t : Text) : Option (String × Text) :=
  (SplitText.cut '=' t).bind fun parts => (decodeText parts.1).bind fun name =>
    (decodeText parts.2).map fun value => (name, value.toList)

theorem readParam_writeParam (param : String × Text) :
    readParam (writeParam param) = some param := by
  have hname : '=' ∉ encode unreserved (TextBytes.encodeText param.1) :=
    PercentText.not_mem_encode (PercentText.not_mem_encodeByte isPlain_unreserved (by decide)
      (by decide) (by decide)) _
  rw [readParam, writeParam, SplitText.cut_append hname, Option.bind_some,
    PercentText.decodeText_encodeText isPlain_unreserved, Option.bind_some,
    PercentText.decodeText_encodeText isPlain_unreserved, Option.map_some, String.toList_ofList]

theorem ampersand_not_mem (param : String × Text) : '&' ∉ writeParam param := by
  have hencode : ∀ bytes, '&' ∉ encode unreserved bytes :=
    PercentText.not_mem_encode (PercentText.not_mem_encodeByte isPlain_unreserved (by decide)
      (by decide) (by decide))
  rw [writeParam, List.mem_append, List.mem_cons, not_or, not_or]
  exact ⟨hencode _, by decide, hencode _⟩

def writeQuery (params : List (String × Text)) : Text := ['&'].intercalate (params.map writeParam)

def readQuery (t : Text) (name : String) : Option Text :=
  ((t.splitOn '&').filterMap readParam).lookup name

theorem filterMap_writeParam (params : List (String × Text)) :
    ((writeQuery params).splitOn '&').filterMap readParam = params := by
  by_cases hne : params = []
  · rw [hne]
    rfl
  · rw [writeQuery, List.splitOn_intercalate]
    · rw [List.filterMap_map]
      conv_rhs => rw [← List.filterMap_some (l := params)]
      exact List.filterMap_congr fun param _ => readParam_writeParam param
    · intro l hl
      obtain ⟨param, -, rfl⟩ := List.mem_map.1 hl
      exact ampersand_not_mem param
    · exact mt List.map_eq_nil_iff.1 hne

theorem toLower_eq_self {c : Char} (h : isTypeChar c = true ∨ c = '/') : c.toLower = c := by
  have hrange := isTypeChar_range h
  have hupper : ¬(0x41 ≤ c.toNat ∧ c.toNat ≤ 0x5A) := by
    have hmarks : ('.'.toNat = 0x2E ∧ '+'.toNat = 0x2B) ∧ '-'.toNat = 0x2D ∧ '/'.toNat = 0x2F := by
      decide
    simp only [isTypeChar, isTypeStart, Bool.or_eq_true, Bool.and_eq_true, decide_eq_true_eq] at h
    obtain (((h | rfl) | rfl) | rfl) | rfl := h <;> omega
  exact dif_neg fun hc => hupper ⟨hc.1, hc.2⟩

/-- What is signed in the sample. -/
def signedText : Text := "v1\nGET\nmedia\na b/ц\n360\n".toList

def hmac (t : Text) : Text :=
  if t = signedText then List.replicate 64 '0' else List.replicate 64 'f'

def platform : Platform where
  hmac := hmac
  isDigest_hmac t := by
    unfold hmac
    split_ifs
    · decide
    · decide
  writeNumber := writeNumber
  readInteger t :=
    if writeNumber (readNumber t) = t ∧ isSafeInteger (readNumber t) then some (readNumber t)
    else none
  readInteger_write n := by simp only [readNumber_writeNumber, true_and]
  writeNumber_inj m n h := by rw [← readNumber_writeNumber m, h, readNumber_writeNumber]
  writeNumber_line _ h := mem_writeNumber h rfl
  toLowerCase t := t.map Char.toLower
  toLowerCase_type t h := by
    conv_rhs => rw [← List.map_id t]
    exact List.map_congr_left fun c hc => toLower_eq_self (h c hc)
  writeQuery := writeQuery
  readQuery := readQuery
  readQuery_write params _ name := by rw [readQuery, filterMap_writeParam]

theorem eq_of_hmac {t : Text} (h : hmac t = hmac signedText) : t = signedText := by
  by_contra hne
  rw [hmac, hmac, if_neg hne, if_pos rfl] at h
  exact absurd h (by decide)

def request : SignRequest := ⟨.GET, "media", "a b/ц", some 60, none⟩

theorem signedText_eq :
    canonical platform (request.capability platform (300 + trunc 60)) = signedText := by
  decide +kernel

end Sample

section
open LocalUrl.Sample

/-- A download of a key with a space and a letter of two bytes, for a minute. -/
theorem capability_of_sign_minute :
    IsCapability platform (request.capability platform (300 + trunc 60))
      (urlOf platform (request.capability platform (300 + trunc 60))) :=
  capability_of_sign (p := request) rfl rfl (by decide)
    fun _ h => (eq_of_hmac (signedText_eq ▸ h)).trans signedText_eq.symm

/-- With a line break in the bucket, two capabilities are signed as one. -/
theorem canonical_line_break :
    (⟨.GET, "a\nb", "c", 1, []⟩ : Capability) ≠ ⟨.GET, "a", "b\nc", 1, []⟩ ∧
    canonical platform ⟨.GET, "a\nb", "c", 1, []⟩ =
      canonical platform ⟨.GET, "a", "b\nc", 1, []⟩ :=
  ⟨by decide, by decide +kernel⟩

end

end OneToThree.Media.LocalUrl
