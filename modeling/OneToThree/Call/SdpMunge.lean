import OneToThree.Lib.JsonUnits
import OneToThree.Lib.SplitText

/-!
# Opus parameters in a session description

`mungeOpusStereo` gives each format line (`a=fmtp:`) of an opus payload type the parameters of
`OPUS_PARAMS` that it does not name, and a payload type that has none a format line behind its
`a=rtpmap:` line. Lines, payload types and parameters are found by regular expressions, each of
which is a function here.

For a description whose lines end all in the same way (`Uniform`), munging once is enough
(`munge_munge`), and all that was in it stays (`munge_conservative`).
-/

namespace OneToThree.SdpMunge

open JsText SplitText

/-! ## Lines -/

/-- What a character is compared by where case does not matter. -/
def foldUnit (u : ℕ) : ℕ := if 0x41 ≤ u ∧ u ≤ 0x5A then u + 0x20 else u

/-- Whether a text starts with `start`, which is in lower case, whatever the case. -/
def startsWithI (start t : JsText) : Bool := start.isPrefixOf (t.map foldUnit)

def isDigit (u : ℕ) : Bool := 0x30 ≤ u && u ≤ 0x39

def isLineTerminator (u : ℕ) : Bool := u = 10 || u = 13 || u = 0x2028 || u = 0x2029

/-- `/^a=rtpmap:(\d+)\s+opus\/48000(?:\/\d+)?/i`: the payload type. What may follow does not
    matter, as the end of the line is not asked for. -/
def matchRtpmap (line : JsText) : Option JsText :=
  if startsWithI (ascii "a=rtpmap:") line then
    let r := line.drop 9
    if r.takeWhile isDigit ≠ [] ∧ (r.dropWhile isDigit).head?.any isSpace ∧
        startsWithI (ascii "opus/48000") (trimStart (r.dropWhile isDigit)) then
      some (r.takeWhile isDigit)
    else none
  else none

/-- `/^a=fmtp:(\d+)\s+(.*)$/`: the payload type, and the parameters. -/
def matchFmtp (line : JsText) : Option (JsText × JsText) :=
  if (ascii "a=fmtp:").isPrefixOf line then
    let r := line.drop 7
    if r.takeWhile isDigit ≠ [] ∧ (r.dropWhile isDigit).head?.any isSpace ∧
        !(trimStart (r.dropWhile isDigit)).any isLineTerminator then
      some (r.takeWhile isDigit, trimStart (r.dropWhile isDigit))
    else none
  else none

/-- The format line of a payload type, up to its parameters. -/
def fmtpStart (pt : JsText) : JsText := ascii "a=fmtp:" ++ pt ++ [0x20]

/-! ## Parameters -/

def OPUS_PARAMS : List (JsText × JsText) :=
  [("stereo", "1"), ("sprop-stereo", "1"), ("maxaveragebitrate", "192000"),
    ("maxplaybackrate", "48000")].map fun p => (ascii p.1, ascii p.2)

/-- `key=value`. -/
def parameter (p : JsText × JsText) : JsText := p.1 ++ 0x3D :: p.2

/-- Whether a text starts with white space and `key=`. -/
def startsWithKey (key t : JsText) : Bool := startsWithI (key ++ [0x3D]) (trimStart t)

/-- The same behind one of the semicolons. -/
def hasKeyBehind (key : JsText) : JsText → Bool
  | [] => false
  | u :: t => u = 0x3B && startsWithKey key t || hasKeyBehind key t

/-- `/(^|;)\s*key=/i`. -/
def hasKey (key t : JsText) : Bool := startsWithKey key t || hasKeyBehind key t

def addMissing (out : JsText) (p : JsText × JsText) : JsText :=
  if hasKey p.1 out then out else out ++ 0x3B :: parameter p

def augment (existing : JsText) : JsText := OPUS_PARAMS.foldl addMissing existing

/-! ## Descriptions -/

/-- The parameters of a payload type that has no format line. -/
def allParams : JsText := [0x3B].intercalate (OPUS_PARAMS.map parameter)

section
variable (opusPts : List JsText) (lines : List JsText)

/-- The second pass. `fmtpSeen`: the payload types that have had their format line. -/
def rewriteLines (fmtpSeen : List JsText) : List JsText → List JsText
  | [] => []
  | line :: rest =>
    match (matchFmtp line).filter fun m => m.1 ∈ opusPts with
    | some m => (fmtpStart m.1 ++ augment m.2) :: rewriteLines (m.1 :: fmtpSeen) rest
    | none =>
      match (matchRtpmap line).filter fun pt =>
          pt ∉ fmtpSeen && !lines.any fun l => (fmtpStart pt).isPrefixOf l with
      | some pt => line :: (fmtpStart pt ++ allParams) :: rewriteLines (pt :: fmtpSeen) rest
      | none => line :: rewriteLines fmtpSeen rest

end

def crlf : JsText := [13, 10]

def newlineOf (sdp : JsText) : JsText := if includes crlf sdp then crlf else [10]

def linesOf (sdp : JsText) : List JsText := split (newlineOf sdp) sdp

def opusPts (lines : List JsText) : List JsText := lines.filterMap matchRtpmap

def mungeOpusStereo (sdp : JsText) : JsText :=
  if sdp = [] then sdp
  else if opusPts (linesOf sdp) = [] then sdp
  else (newlineOf sdp).intercalate (rewriteLines (opusPts (linesOf sdp)) (linesOf sdp) []
    (linesOf sdp))

/-! ## What the parameters are -/

/-- The parts of a parameter list. -/
def params (body : JsText) : List JsText := body.splitOn 0x3B

/-- The name of a part: what is in front of its first `=`, but for white space at its start. -/
def parameterName (part : JsText) : Option JsText :=
  if 0x3D ∈ trimStart part then some (((trimStart part).takeWhile (· ≠ 0x3D)).map foldUnit)
  else none

/-- How often a parameter list names a parameter. -/
def timesNamed (key body : JsText) : ℕ :=
  (params body).countP fun part => parameterName part = some key

/-- A key has no semicolon and no `=`, and its parameter names it in one line. -/
structure IsParameter (p : JsText × JsText) : Prop where
  key : 0x3B ∉ p.1 ∧ 0x3D ∉ p.1
  part : 0x3B ∉ parameter p
  name : parameterName (parameter p) = some p.1
  line : ∀ u ∈ parameter p, isLineTerminator u = false

theorem isParameter : ∀ p ∈ OPUS_PARAMS, IsParameter p := by
  have h : ∀ p ∈ OPUS_PARAMS, (0x3B ∉ p.1 ∧ 0x3D ∉ p.1) ∧ 0x3B ∉ parameter p ∧
      parameterName (parameter p) = some p.1 ∧ ∀ u ∈ parameter p, isLineTerminator u = false := by
    decide +kernel
  intro p hp
  obtain ⟨hkey, hpart, hname, hline⟩ := h p hp
  exact ⟨hkey, hpart, hname, hline⟩

theorem nodup_keys : (OPUS_PARAMS.map Prod.fst).Nodup := by decide +kernel

theorem foldUnit_eq_iff {u c : ℕ} (h : c < 0x41) : foldUnit u = c ↔ u = c := by
  rw [foldUnit]
  split_ifs with hu
  · omega
  · exact Iff.rfl

theorem isPrefixOf_append_cons {c : ℕ} {l x : JsText} (h : c ∉ l) (y : JsText) :
    l.isPrefixOf (x ++ c :: y) = l.isPrefixOf x := by
  induction l generalizing x with
  | nil => rfl
  | cons a l ih =>
    obtain ⟨hne, hl⟩ := not_or.1 fun hmem => h (List.mem_cons.2 hmem)
    cases x with
    | nil => rw [List.nil_append, isPrefixOf_cons_eq_false (Ne.symm hne)]; rfl
    | cons b x => rw [List.cons_append, List.isPrefixOf_cons_cons, List.isPrefixOf_cons_cons, ih hl]

theorem trimStart_append_cons {c : ℕ} (h : isSpace c = false) (p t : JsText) :
    trimStart (p ++ c :: t) = trimStart p ++ c :: t := by
  have hc : trimStart (c :: t) = c :: t := trimStart_eq_self fun u hu => Option.some.inj hu ▸ h
  rw [trimStart, List.dropWhile_append]
  split_ifs with hnil
  · rw [trimStart, List.isEmpty_iff.1 hnil, List.nil_append]
    exact hc
  · rfl

section
variable {key : JsText}

/-- A key at the start of a text is in its first part. -/
theorem startsWithKey_append (hkey : 0x3B ∉ key) (p t : JsText) :
    startsWithKey key (p ++ 0x3B :: t) = startsWithKey key p := by
  have hkey' : 0x3B ∉ key ++ [0x3D] := by simp [hkey]
  rw [startsWithKey, startsWithKey, trimStart_append_cons rfl, startsWithI, List.map_append,
    List.map_cons, show foldUnit 0x3B = 0x3B from rfl, isPrefixOf_append_cons hkey', startsWithI]

theorem hasKeyBehind_append {p : JsText} (hp : 0x3B ∉ p) (t : JsText) :
    hasKeyBehind key (p ++ 0x3B :: t) = hasKey key t := by
  induction p with
  | nil => simp [hasKeyBehind, hasKey]
  | cons u p ih =>
    obtain ⟨hne, hp⟩ := not_or.1 fun hmem => hp (List.mem_cons.2 hmem)
    rw [List.cons_append, hasKeyBehind, decide_eq_false (Ne.symm hne), Bool.false_and,
      Bool.false_or, ih hp]

theorem hasKeyBehind_of_not_mem {t : JsText} (ht : 0x3B ∉ t) : hasKeyBehind key t = false := by
  induction t with
  | nil => rfl
  | cons u t ih =>
    obtain ⟨hne, ht⟩ := not_or.1 fun hmem => ht (List.mem_cons.2 hmem)
    rw [hasKeyBehind, decide_eq_false (Ne.symm hne), Bool.false_and, Bool.false_or, ih ht]

/-- The expression finds a key in one of the parts. -/
theorem hasKey_eq_any (hkey : 0x3B ∉ key) (t : JsText) :
    hasKey key t = (params t).any (startsWithKey key) := by
  induction hn : t.length using Nat.strong_induction_on generalizing t with
  | _ n ih =>
    rw [params]
    rcases splitOn_cases 0x3B t with ⟨ht, hparts⟩ | ⟨p, r, hp, rfl, hparts⟩
    · rw [hparts, hasKey, hasKeyBehind_of_not_mem ht]
      simp
    · rw [hparts, hasKey, startsWithKey_append hkey, hasKeyBehind_append hp, List.any_cons,
        ih r.length (by simp [← hn]; omega) r rfl, params]

theorem startsWithKey_iff (hkey : 0x3D ∉ key) (part : JsText) :
    startsWithKey key part = true ↔ parameterName part = some key := by
  rw [startsWithKey, startsWithI, List.isPrefixOf_iff_prefix, parameterName]
  generalize trimStart part = t
  constructor
  · rintro ⟨r, hr⟩
    rw [List.append_assoc] at hr
    obtain ⟨a, b, rfl, ha, hb⟩ := List.map_eq_append_iff.1 hr.symm
    obtain ⟨c, d, rfl, hc, -⟩ := List.map_eq_cons_iff.1 hb
    obtain rfl := (foldUnit_eq_iff (by decide)).1 hc
    have hnot : ∀ u ∈ a, decide (u ≠ 0x3D) = true := by
      intro u hu
      refine decide_eq_true ?_
      rintro rfl
      exact hkey (ha ▸ List.mem_map_of_mem (f := foldUnit) hu)
    rw [if_pos (List.mem_append_right _ List.mem_cons_self),
      List.takeWhile_append_of_pos hnot, List.takeWhile_cons_of_neg (by simp), List.append_nil, ha]
  · intro h
    split_ifs at h with hmem
    obtain ⟨a, b, rfl, ha⟩ := List.eq_append_cons_of_mem hmem
    have hnot : ∀ u ∈ a, decide (u ≠ 0x3D) = true := fun u hu =>
      decide_eq_true fun heq => ha (heq ▸ hu)
    rw [List.takeWhile_append_of_pos hnot, List.takeWhile_cons_of_neg (by simp),
      List.append_nil] at h
    refine ⟨b.map foldUnit, ?_⟩
    rw [← Option.some.inj h, List.map_append, List.map_cons, List.append_assoc]
    rfl

theorem hasKey_iff (h : 0x3B ∉ key ∧ 0x3D ∉ key) (t : JsText) :
    hasKey key t = true ↔ timesNamed key t ≠ 0 := by
  rw [hasKey_eq_any h.1, List.any_eq_true, timesNamed, ← Nat.pos_iff_ne_zero, List.countP_pos_iff]
  simp only [startsWithKey_iff h.2, decide_eq_true_eq]

end

/-! ## What is added -/

/-- As often as before, or once. -/
def orOnce (n : ℕ) : ℕ := if n = 0 then 1 else n

section
variable {p : JsText × JsText} {out : JsText}

theorem params_addMissing (hp : IsParameter p) (out : JsText) :
    params (addMissing out p) = if hasKey p.1 out then params out
      else params out ++ [parameter p] := by
  rw [addMissing]
  split_ifs
  · rfl
  · rw [params, List.splitOn_append_cons_self, List.splitOn_eq_singleton hp.part, params]

theorem timesNamed_addMissing (hp : IsParameter p) (key out : JsText) :
    timesNamed key (addMissing out p) =
      if p.1 = key then orOnce (timesNamed key out) else timesNamed key out := by
  have hhas := hasKey_iff hp.key out
  rw [timesNamed, params_addMissing hp]
  by_cases hkey : p.1 = key
  · subst hkey
    rw [if_pos rfl, orOnce]
    by_cases h : hasKey p.1 out = true
    · rw [if_pos h, if_neg (hhas.1 h), timesNamed]
    · have hnone : timesNamed p.1 out = 0 := Decidable.not_not.1 fun hne => h (hhas.2 hne)
      rw [if_neg h, if_pos hnone, List.countP_append, ← timesNamed, hnone]
      simp [hp.name]
  · rw [if_neg hkey]
    split_ifs
    · rfl
    · rw [List.countP_append, ← timesNamed]
      simp [hp.name, hkey]

end

/-- What every addition keeps is kept by all of them. -/
theorem augment_keeps {P : JsText → Prop} {body : JsText} (h : P body)
    (hstep : ∀ out, P out → ∀ p ∈ OPUS_PARAMS, P (addMissing out p)) : P (augment body) :=
  List.foldlRecOn OPUS_PARAMS addMissing h hstep

theorem timesNamed_foldl {l : List (JsText × JsText)} (hl : ∀ p ∈ l, IsParameter p)
    (hnodup : (l.map Prod.fst).Nodup) (key out : JsText) :
    timesNamed key (l.foldl addMissing out) =
      if key ∈ l.map Prod.fst then orOnce (timesNamed key out) else timesNamed key out := by
  induction l generalizing out with
  | nil => simp
  | cons p l ih =>
    obtain ⟨hp, hl⟩ := List.forall_mem_cons.1 hl
    obtain ⟨hnot, hnodup⟩ := List.nodup_cons.1 hnodup
    rw [List.foldl_cons, ih hl hnodup, timesNamed_addMissing hp]
    by_cases hkey : p.1 = key
    · subst hkey
      rw [if_neg hnot, if_pos rfl, if_pos (by simp)]
    · rw [if_neg hkey]
      simp only [List.map_cons, List.mem_cons, Ne.symm hkey, false_or]

/-- Each of the parameters is named as often as before, or once. -/
theorem timesNamed_augment {p : JsText × JsText} (hp : p ∈ OPUS_PARAMS) (body : JsText) :
    timesNamed p.1 (augment body) = orOnce (timesNamed p.1 body) := by
  rw [augment, timesNamed_foldl isParameter nodup_keys, if_pos (List.mem_map_of_mem hp)]

/-- The parts there were are followed by those that are added. -/
theorem params_augment (body : JsText) : ∃ added, params (augment body) = params body ++ added := by
  refine augment_keeps (P := fun out => ∃ added, params out = params body ++ added)
    ⟨[], (List.append_nil _).symm⟩ ?_
  rintro out ⟨added, hadded⟩ p hp
  rw [params_addMissing (isParameter p hp)]
  split_ifs
  · exact ⟨added, hadded⟩
  · exact ⟨added ++ [parameter p], by rw [hadded, List.append_assoc]⟩

theorem augment_augment (body : JsText) : augment (augment body) = augment body := by
  have hkeep : ∀ l : List (JsText × JsText), (∀ p ∈ l, p ∈ OPUS_PARAMS) →
      l.foldl addMissing (augment body) = augment body := by
    intro l hl
    induction l with
    | nil => exact List.foldl_nil
    | cons p l ih =>
      obtain ⟨hp, hl⟩ := List.forall_mem_cons.1 hl
      have hhas : hasKey p.1 (augment body) = true := by
        rw [hasKey_iff (isParameter p hp).key, timesNamed_augment hp, orOnce]
        split_ifs with h
        · exact Nat.one_ne_zero
        · exact h
      rw [List.foldl_cons, addMissing, if_pos hhas, ih hl]
  exact hkeep OPUS_PARAMS fun _ hp => hp

/-! ## What the expressions match -/

/-- A text of one line. -/
def OneLine (t : JsText) : Prop := ∀ u ∈ t, isLineTerminator u = false

theorem OneLine.append {t t' : JsText} (h : OneLine t) (h' : OneLine t') : OneLine (t ++ t') :=
  fun u hu => (List.mem_append.1 hu).elim (h u) (h' u)

theorem OneLine.subset {t t' : JsText} (h : OneLine t) (hsub : t' ⊆ t) : OneLine t' :=
  fun u hu => h u (hsub hu)

theorem oneLine_iff {t : JsText} : t.any isLineTerminator = false ↔ OneLine t := by
  simp [OneLine]

/-- A payload type, as the expressions capture it. -/
structure IsPt (pt : JsText) : Prop where
  ne_nil : pt ≠ []
  digits : ∀ u ∈ pt, isDigit u = true

theorem isPt_takeWhile {t : JsText} (h : t.takeWhile isDigit ≠ []) : IsPt (t.takeWhile isDigit) :=
  ⟨h, List.all_eq_true.1 List.all_takeWhile⟩

theorem matchRtpmap_eq_some {line pt : JsText} (h : matchRtpmap line = some pt) :
    startsWithI (ascii "a=rtpmap:") line = true ∧ IsPt pt := by
  rw [matchRtpmap] at h
  obtain ⟨hstart, h⟩ := Option.ite_none_right_eq_some.1 h
  obtain ⟨⟨hne, -⟩, h⟩ := Option.ite_none_right_eq_some.1 h
  exact ⟨hstart, Option.some.inj h ▸ isPt_takeWhile hne⟩

structure IsFmtp (pt body : JsText) : Prop where
  isPt : IsPt pt
  oneLine : OneLine body
  trimmed : trimStart body = body

theorem matchFmtp_eq_some {line pt body : JsText} (h : matchFmtp line = some (pt, body)) :
    IsFmtp pt body := by
  rw [matchFmtp] at h
  obtain ⟨-, h⟩ := Option.ite_none_right_eq_some.1 h
  obtain ⟨⟨hne, -, hline⟩, h⟩ := Option.ite_none_right_eq_some.1 h
  obtain ⟨rfl, rfl⟩ := Prod.mk.inj (Option.some.inj h)
  rw [Bool.not_eq_true'] at hline
  refine ⟨isPt_takeWhile hne, oneLine_iff.1 hline, trimStart_eq_self ?_⟩
  exact not_isSpace_head_trimStart _

/-- What a format line starts with. -/
theorem ascii_fmtp : ascii "a=fmtp:" = [0x61, 0x3D, 0x66, 0x6D, 0x74, 0x70, 0x3A] := by
  decide +kernel

theorem ascii_rtpmap :
    ascii "a=rtpmap:" = [0x61, 0x3D, 0x72, 0x74, 0x70, 0x6D, 0x61, 0x70, 0x3A] := by
  decide +kernel

/-- The parameters of a format line are what follows its payload type. -/
theorem matchFmtp_fmtpStart {pt r : JsText} (hpt : IsPt pt) (hr : OneLine r) :
    matchFmtp (fmtpStart pt ++ r) = some (pt, trimStart r) := by
  have hline : fmtpStart pt ++ r = ascii "a=fmtp:" ++ (pt ++ 0x20 :: r) := by
    simp [fmtpStart]
  have hdrop : (ascii "a=fmtp:" ++ (pt ++ 0x20 :: r)).drop 7 = pt ++ 0x20 :: r := by
    rw [ascii_fmtp]
    rfl
  have htake : (pt ++ 0x20 :: r).takeWhile isDigit = pt := by
    rw [List.takeWhile_append_of_pos hpt.digits, List.takeWhile_cons_of_neg (by decide),
      List.append_nil]
  have hrest : (pt ++ 0x20 :: r).dropWhile isDigit = 0x20 :: r := by
    rw [List.dropWhile_append_of_pos hpt.digits, List.dropWhile_cons_of_neg (by decide)]
  have htrim : trimStart (0x20 :: r) = trimStart r := List.dropWhile_cons_of_pos rfl
  have hone : (trimStart r).any isLineTerminator = false :=
    oneLine_iff.2 (hr.subset (List.dropWhile_subset _))
  rw [hline, matchFmtp, if_pos (List.isPrefixOf_iff_prefix.2 (List.prefix_append _ _)), hdrop]
  simp only [htake, hrest, htrim, hone]
  exact if_pos ⟨hpt.ne_nil, rfl, rfl⟩

/-- A format line maps no payload type. -/
theorem matchRtpmap_fmtpStart (pt r : JsText) : matchRtpmap (fmtpStart pt ++ r) = none := by
  have hstart : startsWithI (ascii "a=rtpmap:") (fmtpStart pt ++ r) = false := by
    rw [fmtpStart, ascii_fmtp, ascii_rtpmap]
    rfl
  rw [matchRtpmap, hstart, if_neg Bool.false_ne_true]

theorem matchRtpmap_of_matchFmtp {line : JsText} {m : JsText × JsText}
    (h : matchFmtp line = some m) : matchRtpmap line = none := by
  rw [matchFmtp] at h
  obtain ⟨hstart, -⟩ := Option.ite_none_right_eq_some.1 h
  obtain ⟨r, rfl⟩ := List.isPrefixOf_iff_prefix.1 hstart
  have hnot : startsWithI (ascii "a=rtpmap:") (ascii "a=fmtp:" ++ r) = false := by
    rw [ascii_fmtp, ascii_rtpmap]
    rfl
  rw [matchRtpmap, hnot, if_neg Bool.false_ne_true]

/-- An augmented parameter list is matched as it is. -/
theorem IsFmtp.augment {pt body : JsText} (h : IsFmtp pt body) : IsFmtp pt (augment body) where
  isPt := h.isPt
  oneLine := augment_keeps h.oneLine fun out hout p hp => by
    rw [addMissing]
    split_ifs
    · exact hout
    · refine hout.append (List.forall_mem_cons.2 ⟨rfl, (isParameter p hp).line⟩)
  trimmed := augment_keeps (P := fun out => trimStart out = out) h.trimmed fun out hout p _ => by
    rw [addMissing]
    split_ifs
    · exact hout
    · rw [trimStart_append_cons rfl, hout]

theorem IsFmtp.matchFmtp_line {pt body : JsText} (h : IsFmtp pt body) :
    matchFmtp (fmtpStart pt ++ body) = some (pt, body) := by
  rw [matchFmtp_fmtpStart h.isPt h.oneLine, h.trimmed]

theorem isFmtp_allParams {pt : JsText} (hpt : IsPt pt) : IsFmtp pt allParams := by
  have h : (∀ u ∈ allParams, isLineTerminator u = false) ∧ trimStart allParams = allParams := by
    decide +kernel
  exact ⟨hpt, h.1, h.2⟩

theorem augment_allParams : augment allParams = allParams := by decide +kernel

/-! ## The second pass -/

/-- A format line of one of the payload types. -/
def isOpusFmtp (pts : List JsText) (line : JsText) : Bool :=
  (matchFmtp line).any fun m => m.1 ∈ pts

/-- What becomes of a line. -/
def rewriteLine (pts : List JsText) (line : JsText) : JsText :=
  match (matchFmtp line).filter fun m => m.1 ∈ pts with
  | some m => fmtpStart m.1 ++ augment m.2
  | none => line

section
variable {pts : List JsText} {line : JsText}

theorem rewriteLine_of_fmtp {pt body : JsText} (h : matchFmtp line = some (pt, body))
    (hpt : pt ∈ pts) : rewriteLine pts line = fmtpStart pt ++ augment body := by
  rw [rewriteLine, h, Option.filter_some, if_pos (decide_eq_true hpt)]

theorem filter_eq_none (h : isOpusFmtp pts line = false) :
    ((matchFmtp line).filter fun m => m.1 ∈ pts) = none := by
  rw [isOpusFmtp] at h
  cases hm : matchFmtp line with
  | none => rfl
  | some m =>
    rw [hm, Option.any_some] at h
    rw [Option.filter_some, h, if_neg Bool.false_ne_true]

theorem rewriteLine_of_not (h : isOpusFmtp pts line = false) : rewriteLine pts line = line := by
  rw [rewriteLine, filter_eq_none h]

/-- A line is a format line of one of the payload types, or is left as it is. -/
theorem line_cases (pts : List JsText) (line : JsText) :
    (∃ pt body, matchFmtp line = some (pt, body) ∧ pt ∈ pts) ∨ isOpusFmtp pts line = false := by
  cases hm : matchFmtp line with
  | none => exact .inr (by rw [isOpusFmtp, hm]; rfl)
  | some m =>
    by_cases hpt : m.1 ∈ pts
    · exact .inl ⟨m.1, m.2, rfl, hpt⟩
    · exact .inr (by rw [isOpusFmtp, hm, Option.any_some, decide_eq_false hpt])

theorem isOpusFmtp_of_isFmtp {pt body : JsText} (h : IsFmtp pt body) (hpt : pt ∈ pts) :
    isOpusFmtp pts (fmtpStart pt ++ body) = true := by
  rw [isOpusFmtp, h.matchFmtp_line]
  exact decide_eq_true hpt

/-- What is rewritten is not rewritten again. -/
theorem rewriteLine_rewriteLine (pts : List JsText) (line : JsText) :
    rewriteLine pts (rewriteLine pts line) = rewriteLine pts line := by
  rcases line_cases pts line with ⟨pt, body, hm, hpt⟩ | hnot
  · rw [rewriteLine_of_fmtp hm hpt,
      rewriteLine_of_fmtp (matchFmtp_eq_some hm).augment.matchFmtp_line hpt, augment_augment]
  · rw [rewriteLine_of_not hnot, rewriteLine_of_not hnot]

theorem rewriteLine_allParams {pt : JsText} (hpt : IsPt pt) :
    rewriteLine pts (fmtpStart pt ++ allParams) = fmtpStart pt ++ allParams := by
  by_cases hmem : pt ∈ pts
  · rw [rewriteLine_of_fmtp (isFmtp_allParams hpt).matchFmtp_line hmem, augment_allParams]
  · refine rewriteLine_of_not ?_
    rw [isOpusFmtp, (isFmtp_allParams hpt).matchFmtp_line]
    exact decide_eq_false hmem

theorem matchRtpmap_rewriteLine (pts : List JsText) (line : JsText) :
    matchRtpmap (rewriteLine pts line) = matchRtpmap line := by
  rcases line_cases pts line with ⟨pt, body, hm, hpt⟩ | hnot
  · rw [rewriteLine_of_fmtp hm hpt, matchRtpmap_fmtpStart, matchRtpmap_of_matchFmtp hm]
  · rw [rewriteLine_of_not hnot]

theorem oneLine_fmtpStart {pt : JsText} (hpt : IsPt pt) : OneLine (fmtpStart pt) := by
  have hfmtp : OneLine (ascii "a=fmtp:") := by
    rw [ascii_fmtp, OneLine]
    decide
  refine (hfmtp.append fun u hu => ?_).append fun u hu => List.mem_singleton.1 hu ▸ rfl
  have hdigit := hpt.digits u hu
  simp only [isDigit, Bool.and_eq_true, decide_eq_true_eq] at hdigit
  simp only [isLineTerminator, Bool.or_eq_false_iff, decide_eq_false_iff_not]
  omega

theorem oneLine_rewriteLine (h : OneLine line) : OneLine (rewriteLine pts line) := by
  rcases line_cases pts line with ⟨pt, body, hm, hpt⟩ | hnot
  · have hfmtp := (matchFmtp_eq_some hm).augment
    rw [rewriteLine_of_fmtp hm hpt]
    exact (oneLine_fmtpStart hfmtp.isPt).append hfmtp.oneLine
  · rwa [rewriteLine_of_not hnot]

end

section
variable {pts all ls seen : List JsText} {line : JsText}

/-- What the second pass puts behind a line, and the payload type it has seen then. -/
theorem rewriteLines_cons (pts all seen : List JsText) (line : JsText) (ls : List JsText) :
    (isOpusFmtp pts line = true ∧ ∃ pt body, matchFmtp line = some (pt, body) ∧
      rewriteLines pts all seen (line :: ls) =
        rewriteLine pts line :: rewriteLines pts all (pt :: seen) ls) ∨
    (∃ pt, matchRtpmap line = some pt ∧ rewriteLines pts all seen (line :: ls) =
      rewriteLine pts line :: (fmtpStart pt ++ allParams) ::
        rewriteLines pts all (pt :: seen) ls) ∨
    rewriteLines pts all seen (line :: ls) =
      rewriteLine pts line :: rewriteLines pts all seen ls ∧
      ∀ pt, matchRtpmap line = some pt →
        pt ∈ seen ∨ (all.any fun l => (fmtpStart pt).isPrefixOf l) = true := by
  rcases line_cases pts line with ⟨pt, body, hm, hpt⟩ | hnot
  · refine .inl ⟨?_, pt, body, hm, ?_⟩
    · rw [isOpusFmtp, hm]
      exact decide_eq_true hpt
    · rw [rewriteLines, rewriteLine_of_fmtp hm hpt, hm, Option.filter_some,
        if_pos (decide_eq_true hpt)]
  · rw [rewriteLines, filter_eq_none hnot, rewriteLine_of_not hnot]
    cases hr : matchRtpmap line with
    | none => exact .inr (.inr ⟨rfl, fun pt h => by cases h⟩)
    | some pt =>
      rw [Option.filter_some]
      split_ifs with hadd
      · exact .inr (.inl ⟨pt, rfl, rfl⟩)
      · refine .inr (.inr ⟨rfl, fun pt' h => ?_⟩)
        obtain rfl := Option.some.inj h
        rw [Bool.and_eq_true, decide_eq_true_eq, Bool.not_eq_true', not_and_or,
          Decidable.not_not, Bool.not_eq_false] at hadd
        exact hadd

/-- The lines that come out are those that went in, rewritten, and those that were added. -/
theorem mem_rewriteLines {l : JsText} (h : l ∈ rewriteLines pts all seen ls) :
    (∃ line ∈ ls, l = rewriteLine pts line) ∨
      ∃ line ∈ ls, ∃ pt, matchRtpmap line = some pt ∧ l = fmtpStart pt ++ allParams := by
  induction ls generalizing seen with
  | nil => cases h
  | cons line ls ih =>
    have hrest : ∀ {seen}, l ∈ rewriteLines pts all seen ls →
        (∃ line' ∈ line :: ls, l = rewriteLine pts line') ∨
          ∃ line' ∈ line :: ls, ∃ pt, matchRtpmap line' = some pt ∧
            l = fmtpStart pt ++ allParams := by
      intro seen h
      rcases ih h with ⟨line', hmem, hl⟩ | ⟨line', hmem, hl⟩
      · exact .inl ⟨line', List.mem_cons_of_mem _ hmem, hl⟩
      · exact .inr ⟨line', List.mem_cons_of_mem _ hmem, hl⟩
    have hhead : l = rewriteLine pts line → ∃ line' ∈ line :: ls, l = rewriteLine pts line' :=
      fun hl => ⟨line, List.mem_cons_self, hl⟩
    rcases rewriteLines_cons pts all seen line ls with
      ⟨-, pt, body, -, heq⟩ | ⟨pt, hpt, heq⟩ | ⟨heq, -⟩
    · rw [heq] at h
      exact (List.mem_cons.1 h).elim (fun hl => .inl (hhead hl)) hrest
    · rw [heq] at h
      rcases List.mem_cons.1 h with hl | h
      · exact .inl (hhead hl)
      · rcases List.mem_cons.1 h with hl | h
        · exact .inr ⟨line, List.mem_cons_self, pt, hpt, hl⟩
        · exact hrest h
    · rw [heq] at h
      exact (List.mem_cons.1 h).elim (fun hl => .inl (hhead hl)) hrest

theorem sublist_rewriteLines (pts all seen ls : List JsText) :
    (ls.map (rewriteLine pts)).Sublist (rewriteLines pts all seen ls) := by
  induction ls generalizing seen with
  | nil => exact List.Sublist.slnil
  | cons line ls ih =>
    rcases rewriteLines_cons pts all seen line ls with
      ⟨-, pt, body, -, heq⟩ | ⟨pt, -, heq⟩ | ⟨heq, -⟩
    · exact heq ▸ (ih _).cons_cons _
    · exact heq ▸ ((ih _).cons _).cons_cons _
    · exact heq ▸ (ih _).cons_cons _

theorem isOpusFmtp_rewriteLine (pts : List JsText) (line : JsText) :
    isOpusFmtp pts (rewriteLine pts line) = isOpusFmtp pts line := by
  rcases line_cases pts line with ⟨pt, body, hm, hpt⟩ | hnot
  · rw [rewriteLine_of_fmtp hm hpt, isOpusFmtp_of_isFmtp (matchFmtp_eq_some hm).augment hpt,
      isOpusFmtp, hm]
    exact (decide_eq_true hpt).symm
  · rw [rewriteLine_of_not hnot]

/-- The lines that are no format lines of the payload types come out as they went in. -/
theorem filter_rewriteLines (hpts : ∀ line ∈ ls, ∀ pt, matchRtpmap line = some pt → pt ∈ pts) :
    (rewriteLines pts all seen ls).filter (fun l => !isOpusFmtp pts l) =
      ls.filter fun l => !isOpusFmtp pts l := by
  induction ls generalizing seen with
  | nil => rfl
  | cons line ls ih =>
    obtain ⟨hline, hls⟩ := List.forall_mem_cons.1 hpts
    have hhead : ∀ t, (rewriteLine pts line :: t).filter (fun l => !isOpusFmtp pts l) =
        (line :: ls).filter (fun l => !isOpusFmtp pts l) ↔
          t.filter (fun l => !isOpusFmtp pts l) = ls.filter fun l => !isOpusFmtp pts l := by
      intro t
      rw [List.filter_cons, List.filter_cons, isOpusFmtp_rewriteLine]
      split_ifs with hnot
      · rw [rewriteLine_of_not (by simpa using hnot), List.cons.injEq, and_iff_right rfl]
      · exact Iff.rfl
    rcases rewriteLines_cons pts all seen line ls with
      ⟨-, pt, body, -, heq⟩ | ⟨pt, hpt, heq⟩ | ⟨heq, -⟩
    · rw [heq, hhead, ih hls]
    · have hfmtp := isFmtp_allParams (matchRtpmap_eq_some hpt).2
      rw [heq, hhead, List.filter_cons_of_neg, ih hls]
      rw [isOpusFmtp_of_isFmtp hfmtp (hline pt hpt)]
      exact Bool.false_ne_true
    · rw [heq, hhead, ih hls]

/-- What is in its final form stays. -/
theorem rewriteLines_eq_self (hline : ∀ l ∈ ls, rewriteLine pts l = l)
    (hpts : ∀ l ∈ ls, ∀ pt, matchRtpmap l = some pt →
      (all.any fun l => (fmtpStart pt).isPrefixOf l) = true) :
    rewriteLines pts all seen ls = ls := by
  induction ls generalizing seen with
  | nil => rfl
  | cons l ls ih =>
    obtain ⟨hl, hls⟩ := List.forall_mem_cons.1 hline
    obtain ⟨hl', hls'⟩ := List.forall_mem_cons.1 hpts
    rw [rewriteLines]
    rcases line_cases pts l with ⟨pt, body, hm, hpt⟩ | hnot
    · rw [hm, Option.filter_some, if_pos (decide_eq_true hpt)]
      exact congrArg₂ List.cons ((rewriteLine_of_fmtp hm hpt).symm.trans hl) (ih hls hls')
    · rw [filter_eq_none hnot]
      have hnone : ((matchRtpmap l).filter fun pt =>
          pt ∉ seen && !all.any fun l => (fmtpStart pt).isPrefixOf l) = none := by
        cases hr : matchRtpmap l with
        | none => rfl
        | some pt =>
          rw [Option.filter_some, hl' pt hr, Bool.not_true, Bool.and_false,
            if_neg Bool.false_ne_true]
      rw [hnone]
      exact congrArg (l :: ·) (ih hls hls')

/-- The payload types are mapped as before. -/
theorem filterMap_rewriteLines :
    (rewriteLines pts all seen ls).filterMap matchRtpmap = ls.filterMap matchRtpmap := by
  induction ls generalizing seen with
  | nil => rfl
  | cons line ls ih =>
    rcases rewriteLines_cons pts all seen line ls with
      ⟨-, pt, body, -, heq⟩ | ⟨pt, -, heq⟩ | ⟨heq, -⟩
    · rw [heq, List.filterMap_cons, List.filterMap_cons, matchRtpmap_rewriteLine, ih]
    · rw [heq, List.filterMap_cons, List.filterMap_cons, List.filterMap_cons,
        matchRtpmap_rewriteLine, matchRtpmap_fmtpStart, ih]
    · rw [heq, List.filterMap_cons, List.filterMap_cons, matchRtpmap_rewriteLine, ih]

/-- A payload type that is mapped has its format line. -/
theorem exists_fmtpStart (pts all seen : List JsText) {pt : JsText}
    (h : ∃ line ∈ ls, matchRtpmap line = some pt) :
    pt ∈ seen ∨ (all.any fun l => (fmtpStart pt).isPrefixOf l) = true ∨
      ∃ body, IsFmtp pt body ∧ fmtpStart pt ++ body ∈ rewriteLines pts all seen ls := by
  induction ls generalizing seen with
  | nil =>
    obtain ⟨line, hline, -⟩ := h
    cases hline
  | cons line ls ih =>
    obtain ⟨l, hl, hpt⟩ := h
    have hisPt := (matchRtpmap_eq_some hpt).2
    rcases rewriteLines_cons pts all seen line ls with
      ⟨hopus, pt', body, hm, heq⟩ | ⟨pt', hpt', heq⟩ | ⟨heq, hseen⟩
    · -- The head of the list is a format line, so that it maps nothing.
      have hl : l ∈ ls := by
        rcases List.mem_cons.1 hl with rfl | hl
        · rw [matchRtpmap_of_matchFmtp hm] at hpt
          cases hpt
        · exact hl
      rw [heq]
      rcases @ih (pt' :: seen) ⟨l, hl, hpt⟩ with hmem | hall | ⟨body, hbody, hmem⟩
      · rcases List.mem_cons.1 hmem with rfl | hmem
        · have hpts : pt ∈ pts := by
            rw [isOpusFmtp, hm] at hopus
            exact of_decide_eq_true hopus
          rw [rewriteLine_of_fmtp hm hpts]
          exact .inr (.inr ⟨_, (matchFmtp_eq_some hm).augment, List.mem_cons_self⟩)
        · exact .inl hmem
      · exact .inr (.inl hall)
      · exact .inr (.inr ⟨body, hbody, List.mem_cons_of_mem _ hmem⟩)
    · rw [heq]
      by_cases heq' : pt = pt'
      · subst heq'
        exact .inr (.inr ⟨_, isFmtp_allParams hisPt, List.mem_cons_of_mem _ List.mem_cons_self⟩)
      · have hl : l ∈ ls := by
          rcases List.mem_cons.1 hl with rfl | hl
          · exact absurd (Option.some.inj (hpt.symm.trans hpt')) heq'
          · exact hl
        rcases @ih (pt' :: seen) ⟨l, hl, hpt⟩ with hmem | hall | ⟨body, hbody, hmem⟩
        · exact .inl ((List.mem_cons.1 hmem).resolve_left heq')
        · exact .inr (.inl hall)
        · exact .inr (.inr ⟨body, hbody, List.mem_cons_of_mem _ (List.mem_cons_of_mem _ hmem)⟩)
    · rw [heq]
      rcases List.mem_cons.1 hl with rfl | hl
      · exact (hseen pt hpt).imp_right .inl
      · rcases @ih seen ⟨l, hl, hpt⟩ with hmem | hall | ⟨body, hbody, hmem⟩
        · exact .inl hmem
        · exact .inr (.inl hall)
        · exact .inr (.inr ⟨body, hbody, List.mem_cons_of_mem _ hmem⟩)

end

/-! ## Descriptions of lines -/

/-- The lines of a description all end in `newline`, and have no other line terminator. -/
structure Ends (newline : JsText) (lines : List JsText) : Prop where
  ne_nil : lines ≠ []
  oneLine : ∀ l ∈ lines, OneLine l
  newline : newline = [10] ∨ newline = crlf ∧ 1 < lines.length

/-- The line terminators of a description are all `\r\n`, or all `\n`. -/
def Uniform (sdp : JsText) : Prop :=
  ∃ newline ∈ [crlf, [10]], ∃ lines, lines ≠ [] ∧ (∀ l ∈ lines, OneLine l) ∧
    sdp = newline.intercalate lines

theorem Uniform.ends {sdp : JsText} (h : Uniform sdp) :
    ∃ newline lines, Ends newline lines ∧ sdp = newline.intercalate lines := by
  obtain ⟨newline, hmem, lines, hne, hone, rfl⟩ := h
  rcases List.mem_cons.1 hmem with rfl | hmem
  · by_cases hlen : 1 < lines.length
    · exact ⟨crlf, lines, ⟨hne, hone, .inr ⟨rfl, hlen⟩⟩, rfl⟩
    · -- A single line has no terminator.
      obtain ⟨l, rfl⟩ : ∃ l, lines = [l] :=
        List.length_eq_one_iff.1 (Nat.le_antisymm (Nat.le_of_not_lt hlen)
          (List.length_pos_iff.2 hne))
      exact ⟨[10], [l], ⟨hne, hone, .inl rfl⟩,
        by rw [List.intercalate_singleton, List.intercalate_singleton]⟩
  · exact ⟨newline, lines, ⟨hne, hone, .inl (List.mem_singleton.1 hmem)⟩, rfl⟩

section
variable {newline : JsText} {lines : List JsText}

theorem not_mem_intercalate_lf (h : ∀ l ∈ lines, OneLine l) : 13 ∉ [10].intercalate lines := by
  induction lines with
  | nil => exact List.not_mem_nil
  | cons l lines ih =>
    obtain ⟨hl, hlines⟩ := List.forall_mem_cons.1 h
    have hnot : 13 ∉ l := fun hmem => absurd (hl 13 hmem) (by decide)
    cases lines with
    | nil => rwa [List.intercalate_singleton]
    | cons l' lines =>
      rw [List.intercalate_cons_cons]
      simp only [List.mem_append, List.mem_singleton]
      rintro ((hmem | hmem) | hmem)
      · exact hnot hmem
      · exact absurd hmem (by decide)
      · exact ih hlines hmem

theorem Ends.newlineOf_eq (h : Ends newline lines) :
    newlineOf (newline.intercalate lines) = newline := by
  rw [newlineOf]
  rcases h.newline with rfl | ⟨rfl, hlen⟩
  · rw [crlf, not_includes (not_mem_intercalate_lf h.oneLine), if_neg Bool.false_ne_true]
  · cases lines with
    | nil => exact absurd rfl h.ne_nil
    | cons l lines =>
      cases lines with
      | nil => exact absurd hlen (Nat.lt_irrefl 1)
      | cons l' lines => rw [List.intercalate_cons_cons, includes_append, if_pos rfl]

theorem Ends.linesOf_eq (h : Ends newline lines) :
    linesOf (newline.intercalate lines) = lines := by
  rw [linesOf, h.newlineOf_eq]
  rcases h.newline with rfl | ⟨rfl, -⟩
  · exact split_join h.ne_nil fun l hl hmem => absurd (h.oneLine l hl 10 hmem) (by decide)
  · exact split_join h.ne_nil fun l hl hmem => absurd (h.oneLine l hl 13 hmem) (by decide)

/-- The lines of a description after munging. -/
def mungedLines (lines : List JsText) : List JsText :=
  rewriteLines (opusPts lines) lines [] lines

theorem mungedLines_of_nil (h : opusPts lines = []) : mungedLines lines = lines := by
  rw [mungedLines, h]
  refine rewriteLines_eq_self (fun l _ => rewriteLine_of_not ?_) fun l hl pt hpt => ?_
  · rw [isOpusFmtp]
    cases matchFmtp l with
    | none => rfl
    | some m => rfl
  · have hmem : pt ∈ opusPts lines := List.mem_filterMap.2 ⟨l, hl, hpt⟩
    rw [h] at hmem
    cases hmem

theorem Ends.munge_eq (h : Ends newline lines) :
    mungeOpusStereo (newline.intercalate lines) = newline.intercalate (mungedLines lines) := by
  have hlines := h.linesOf_eq
  rw [mungeOpusStereo, hlines, h.newlineOf_eq]
  split_ifs with hnil hpts
  · rw [hnil] at hlines
    have hpts : opusPts lines = [] := by
      rw [← hlines]
      decide +kernel
    rw [mungedLines_of_nil hpts]
  · rw [mungedLines_of_nil hpts]
  · rfl

theorem Ends.munged (h : Ends newline lines) : Ends newline (mungedLines lines) := by
  have hlen : lines.length ≤ (mungedLines lines).length := by
    have hsub := (sublist_rewriteLines (opusPts lines) lines [] lines).length_le
    rwa [List.length_map] at hsub
  refine ⟨fun hnil => ?_, fun l hl => ?_, h.newline.imp_right fun hn =>
    ⟨hn.1, Nat.lt_of_lt_of_le hn.2 hlen⟩⟩
  · rw [hnil] at hlen
    exact h.ne_nil (List.length_eq_zero_iff.1 (Nat.le_zero.1 hlen))
  · rcases mem_rewriteLines hl with ⟨line, hline, rfl⟩ | ⟨line, hline, pt, hpt, rfl⟩
    · exact oneLine_rewriteLine (h.oneLine line hline)
    · have hisPt := (matchRtpmap_eq_some hpt).2
      exact (oneLine_fmtpStart hisPt).append (isFmtp_allParams hisPt).oneLine

/-- Each payload type that is declared has a format line afterwards. -/
theorem declared_munged (hone : ∀ l ∈ lines, OneLine l) {pt : JsText} (hpt : pt ∈ opusPts lines) :
    ∃ body, IsFmtp pt body ∧ fmtpStart pt ++ body ∈ mungedLines lines := by
  obtain ⟨line, hline, hmap⟩ := List.mem_filterMap.1 hpt
  rcases exists_fmtpStart (opusPts lines) lines [] ⟨line, hline, hmap⟩ with h | h | h
  · cases h
  · -- It had one, which is rewritten.
    obtain ⟨l, hl, hstart⟩ := List.any_eq_true.1 h
    obtain ⟨r, rfl⟩ := List.isPrefixOf_iff_prefix.1 hstart
    have hr : OneLine r := (hone _ hl).subset (List.subset_append_right _ _)
    have hm := matchFmtp_fmtpStart (matchRtpmap_eq_some hmap).2 hr
    refine ⟨augment (trimStart r), (matchFmtp_eq_some hm).augment, ?_⟩
    rw [← rewriteLine_of_fmtp hm hpt]
    exact (sublist_rewriteLines _ _ _ _).subset (List.mem_map_of_mem hl)
  · exact h

theorem mungedLines_mungedLines (hone : ∀ l ∈ lines, OneLine l) :
    mungedLines (mungedLines lines) = mungedLines lines := by
  have hpts : opusPts (mungedLines lines) = opusPts lines := filterMap_rewriteLines
  rw [mungedLines, hpts]
  refine rewriteLines_eq_self (fun l hl => ?_) fun l hl pt hpt => ?_
  · rcases mem_rewriteLines hl with ⟨line, -, rfl⟩ | ⟨line, -, pt, hpt, rfl⟩
    · exact rewriteLine_rewriteLine _ _
    · exact rewriteLine_allParams (matchRtpmap_eq_some hpt).2
  · have hmem : pt ∈ opusPts lines := hpts ▸ List.mem_filterMap.2 ⟨l, hl, hpt⟩
    obtain ⟨body, -, hbody⟩ := declared_munged hone hmem
    exact List.any_eq_true.2 ⟨_, hbody, List.isPrefixOf_iff_prefix.2 (List.prefix_append _ _)⟩

end

/-! ## Munging conserves a description -/

/-- What becomes of a line: a format line of one of the payload types keeps its parameters, and
    names each of the added ones as often as before, or once; another line stays. -/
structure Extends (pts : List JsText) (line line' : JsText) : Prop where
  other : isOpusFmtp pts line = false → line' = line
  fmtp : ∀ pt body, matchFmtp line = some (pt, body) → pt ∈ pts →
    ∃ body', matchFmtp line' = some (pt, body') ∧
      (∃ added, params body' = params body ++ added) ∧
      ∀ p ∈ OPUS_PARAMS, timesNamed p.1 body' = orOnce (timesNamed p.1 body)

/-- All that was in a description stays in its order, and all that is added are format lines of
    opus payload types, of which each has one. -/
structure Conserves (lines lines' : List JsText) : Prop where
  kept : lines'.filter (fun l => !isOpusFmtp (opusPts lines) l) =
    lines.filter fun l => !isOpusFmtp (opusPts lines) l
  extended : ∃ f : JsText → JsText, (lines.map f).Sublist lines' ∧
    ∀ l ∈ lines, Extends (opusPts lines) l (f l)
  declared : ∀ pt ∈ opusPts lines, ∃ l ∈ lines', ∃ body, matchFmtp l = some (pt, body)

theorem conserves_mungedLines {lines : List JsText} (hone : ∀ l ∈ lines, OneLine l) :
    Conserves lines (mungedLines lines) where
  kept := filter_rewriteLines fun line hline pt hpt => List.mem_filterMap.2 ⟨line, hline, hpt⟩
  extended := by
    refine ⟨rewriteLine (opusPts lines), sublist_rewriteLines _ _ _ _, fun l _ => ?_⟩
    refine ⟨rewriteLine_of_not, fun pt body hm hpt => ?_⟩
    rw [rewriteLine_of_fmtp hm hpt]
    exact ⟨augment body, (matchFmtp_eq_some hm).augment.matchFmtp_line, params_augment body,
      fun p hp => timesNamed_augment hp body⟩
  declared pt hpt := by
    obtain ⟨body, hbody, hmem⟩ := declared_munged hone hpt
    exact ⟨_, hmem, body, hbody.matchFmtp_line⟩

/-- Munging twice is munging once, and all that was in a description is conserved. -/
theorem munge_conservative {sdp : JsText} (h : Uniform sdp) :
    mungeOpusStereo (mungeOpusStereo sdp) = mungeOpusStereo sdp ∧
      Conserves (linesOf sdp) (linesOf (mungeOpusStereo sdp)) := by
  obtain ⟨newline, lines, hends, rfl⟩ := h.ends
  rw [hends.munge_eq, hends.munged.munge_eq, mungedLines_mungedLines hends.oneLine,
    hends.linesOf_eq, hends.munged.linesOf_eq]
  exact ⟨rfl, conserves_mungedLines hends.oneLine⟩

/-- A description with a format line in front of its payload type, and a payload type without. -/
def sampleLines : List JsText :=
  ["v=0", "a=fmtp:111 minptime=10;Stereo=0", "a=rtpmap:111 opus/48000/2",
    "a=rtpmap:63 OPUS/48000"].map ascii

def sampleMunged : List JsText :=
  ["v=0",
    "a=fmtp:111 minptime=10;Stereo=0;sprop-stereo=1;maxaveragebitrate=192000;maxplaybackrate=48000",
    "a=rtpmap:111 opus/48000/2", "a=rtpmap:63 OPUS/48000",
    "a=fmtp:63 stereo=1;sprop-stereo=1;maxaveragebitrate=192000;maxplaybackrate=48000"].map ascii

theorem munge_conservative_sample :
    linesOf (mungeOpusStereo (crlf.intercalate sampleLines)) = sampleMunged ∧
      mungeOpusStereo (mungeOpusStereo (crlf.intercalate sampleLines)) =
        mungeOpusStereo (crlf.intercalate sampleLines) := by
  refine ⟨by decide +kernel, (munge_conservative ⟨crlf, List.mem_cons_self, sampleLines, ?_, ?_,
    rfl⟩).1⟩
  · exact List.cons_ne_nil _ _
  · change ∀ l ∈ sampleLines, ∀ u ∈ l, isLineTerminator u = false
    decide +kernel

end OneToThree.SdpMunge
