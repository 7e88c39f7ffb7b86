import OneToThree.Lite.Installer

/-!
# Running the installer again

Both installers read the variables of the last run, settle what depends on them and write all
variables anew.

* `Keeps`: what a run leaves of the runs before.
* `rerun_iff`: which sequences of runs leave it.
-/

namespace OneToThree.Installer

open EnvFile

/-- `install.mjs` and `wizard/server.mjs`. -/
inductive Frontend
  | text | wizard
  deriving DecidableEq

/-- What the operator answers. A blank text is no answer. -/
structure Answers where
  mode : Mode
  opts : Opts
  flags : Flags
  mediaDriver : Text
  s3PublicUrl : Text
  livekit : Livekit
  subject : Text
  adminUsername : Text

/-- The prompt of the text installer. -/
def q (answer default : Text) : Text := orDefault (trim answer) default

namespace Answers

/-- The driver that the text installer settles on. Without objects, it does not ask. -/
def typedDriver (a : Answers) (existing : Existing) : Driver :=
  if a.flags.wantsObjects then resolveMediaDriver a.mediaDriver existing else .fs

/-- What the text installer makes of them. -/
def typed (a : Answers) (existing : Existing) : Answers :=
  { mode := a.mode
    opts :=
      { host := q a.opts.host "192.168.1.50".toList
        httpPort := q a.opts.httpPort "8443".toList
        httpsPort := q a.opts.httpsPort "8443".toList
        domain := q a.opts.domain "chat.example.com".toList
        acmeEmail := q a.opts.acmeEmail [] }
    flags := a.flags
    mediaDriver := (a.typedDriver existing).text
    s3PublicUrl := if a.typedDriver existing = .s3 then trim a.s3PublicUrl else []
    livekit :=
      if trim a.livekit.url = [] then { Livekit.off with bundled := a.livekit.bundled }
      else ⟨false, trim a.livekit.url, trim a.livekit.key, trim a.livekit.secret⟩
    subject := q a.subject (orDefault (value existing .OT_VAPID_SUBJECT) DEFAULT_SUBJECT)
    adminUsername := q a.adminUsername (value existing .OT_ADMIN_USERNAME) }

/-- The driver that a form names. A URL alone means the object store. -/
def postedDriver (a : Answers) : Text :=
  orDefault a.mediaDriver (if trim a.s3PublicUrl = [] then [] else Driver.s3.text)

/-- What the wizard makes of them. -/
def posted (a : Answers) (existing : Existing) : Answers :=
  { a with
    mediaDriver := (resolveMediaDriver a.postedDriver existing).text
    s3PublicUrl := trim a.s3PublicUrl }

def driver (frontend : Frontend) (a : Answers) (existing : Existing) : Driver :=
  match frontend with
  | .text => a.typedDriver existing
  | .wizard => resolveMediaDriver a.postedDriver existing

def prepare (frontend : Frontend) (a : Answers) (existing : Existing) : Answers :=
  match frontend with
  | .text => a.typed existing
  | .wizard => a.posted existing

/-- The operator chooses a driver. -/
def choosesDriver (frontend : Frontend) (a : Answers) : Bool :=
  match frontend with
  | .text => a.flags.wantsObjects && (parseDriver a.mediaDriver).isSome
  | .wizard => (parseDriver a.postedDriver).isSome

end Answers

section
variable (parseUrl : Text → Option Url)

/-- The variables for the answers of an operator. -/
def configure (a : Answers) (existing : Existing) (d : Draws) : Except Problem Env :=
  (computeModeConfig a.mode a.opts).bind fun cfg =>
    (if a.flags.PUSH then (resolveVapid existing a.subject d).map some else .ok none).bind
      fun vapid =>
        if s3UrlProblem parseUrl cfg a.flags a.s3PublicUrl
            (resolveMediaDriver a.mediaDriver existing) then .error .objectStore
        else (resolveLivekit cfg a.flags a.livekit existing d).bind fun livekit =>
          buildEnv parseUrl cfg a.flags a.s3PublicUrl livekit vapid existing a.adminUsername
            a.mediaDriver d

/-- A run: the variables and the file that it writes. -/
def generate (frontend : Frontend) (a : Answers) (file : Option Text) (d : Draws) :
    Except Problem (Env × Text) :=
  let existing := readExistingEnv file
  (configure parseUrl (a.prepare frontend existing) existing d).bind fun env =>
    (renderEnvFile Var.name env).map fun text => (env, text)

end

structure State where
  /-- The file `.env.lite`, if there is one. -/
  file : Option Text
  /-- What runs have written last for a variable. -/
  written : Var → Option Text

structure Event where
  frontend : Frontend
  answers : Answers
  draws : Draws

def State.existing (s : State) : Existing := readExistingEnv s.file

/-- The keys of a pair are drawn anew. -/
def State.isFresh (s : State) (d : Draws) : Bool :=
  s.written .OT_VAPID_PUBLIC_KEY ≠ some d.vapidPublicKey.text

def machine (parseUrl : Text → Option Url) : Machine State Event where
  init s := s.written = fun _ => none
  step s e :=
    if s.isFresh e.draws then
      -- A run whose answers are refused writes nothing.
      some (match generate parseUrl e.frontend e.answers s.file e.draws with
        | .error _ => s
        | .ok (env, text) => ⟨some text, fun v => (env.get? v).or (s.written v)⟩)
    else none

/-- The keys that are given for the bundled server do not end in spaces. -/
def Answers.keysPlain (a : Answers) : Bool :=
  match computeModeConfig a.mode a.opts with
  | .error _ => true
  | .ok cfg => !(a.flags.CALLS && !isExternal cfg a.livekit && a.livekit.bundled) ||
      (trimEnd a.livekit.key = a.livekit.key && trimEnd a.livekit.secret = a.livekit.secret)

/-- What a run that writes `env` in `text` leaves of the runs before. -/
structure Keeps (s : State) (e : Event) (env : Env) (text : Text) : Prop where
  secrets : ∀ v ∈ PERSISTENT_SECRETS, ∀ x y, s.written v = some x → env.get? v = some y → y = x
  driver : e.answers.choosesDriver e.frontend = false → ∀ x,
    s.written .OT_MEDIA_DRIVER = some x → env.get? .OT_MEDIA_DRIVER = some x
  read : (readExistingEnv (some text)).entries = env.entries.map fun p => (p.1.name, p.2)

/-! ## Texts without spaces at the end -/

section
variable {existing : Existing} {file : Option Text} {t u : Text} {d : Draws} {v : Var}

theorem trimEnd_eq_self_iff : trimEnd t = t ↔ ∀ c ∈ t.getLast?, isSpace c = false := by
  refine ⟨fun h c hc => ?_, trimEnd_eq_self⟩
  obtain ⟨hne, rfl⟩ := List.mem_getLast?_eq_getLast hc
  exact eq_false_of_ne_true (List.rdropWhile_eq_self_iff.1 h hne)

theorem trimEnd_append (ht : u ≠ []) (hu : trimEnd u = u) (t : Text) :
    trimEnd (t ++ u) = t ++ u := by
  rw [trimEnd_append_of_ne_nil t (hu.symm ▸ ht), hu]

theorem trimEnd_of_suffix (hsuffix : u <:+ t) (ht : trimEnd t = t) : trimEnd u = u := by
  obtain ⟨w, rfl⟩ := hsuffix
  rw [trimEnd_eq_self_iff] at ht ⊢
  intro c hc
  refine ht c ?_
  obtain ⟨hne, rfl⟩ := List.mem_getLast?_eq_getLast hc
  rw [List.getLast?_append_of_ne_nil w hne]
  exact hc

theorem trim_trim (t : Text) : trim (trim t) = trim t := by
  have hdrop : (trim t).dropWhile isSpace = trim t := by
    have hprefix : trim t <+: t.dropWhile isSpace := List.rdropWhile_prefix _ _
    cases hhead : trim t with
    | nil => rfl
    | cons c cs =>
      refine List.dropWhile_cons_of_neg fun hc => ?_
      obtain ⟨w, hw⟩ := hhead ▸ hprefix
      have hnot := List.head?_dropWhile_not isSpace t
      rw [← hw, List.cons_append, List.head?_cons] at hnot
      simp [hc] at hnot
  rw [trim, hdrop, trimEnd_trim]

theorem isSpace_eq_false {c : Char} (h : 33 ≤ c.toNat ∧ c.toNat ≤ 126) : isSpace c = false := by
  simp only [isSpace, JsText.isSpace, Bool.or_eq_false_iff, Bool.and_eq_false_iff,
    decide_eq_false_iff_not]
  omega

theorem toNat_of_isAlphanum {c : Char} (h : c.isAlphanum = true) :
    33 ≤ c.toNat ∧ c.toNat ≤ 126 := by
  delta Char.isAlphanum Char.isAlpha Char.isUpper Char.isLower Char.isDigit at h
  simp only [Bool.or_eq_true, Bool.and_eq_true, decide_eq_true_eq, ge_iff_le,
    UInt32.le_iff_toNat_le, Char.reduceVal, UInt32.reduceToNat] at h
  change 33 ≤ c.val.toNat ∧ c.val.toNat ≤ 126
  omega

theorem trimEnd_of_forall (h : ∀ c ∈ t, isSpace c = false) : trimEnd t = t :=
  trimEnd_eq_self fun c hc => h c (List.mem_of_getLast? hc)

theorem Token.trimEnd (token : Token) : trimEnd token.text = token.text := by
  refine trimEnd_of_forall fun c hc => isSpace_eq_false ?_
  have hplain := token.plain c hc
  simp only [Bool.or_eq_true, decide_eq_true_eq] at hplain
  rcases hplain with (h | rfl) | rfl
  · exact toNat_of_isAlphanum h
  · decide
  · decide

theorem trimEnd_decimal (n : ℕ) : trimEnd (decimal n) = decimal n := by
  refine trimEnd_of_forall fun c hc => isSpace_eq_false (toNat_of_isAlphanum ?_)
  have hdigit := Nat.isDigit_of_mem_toDigits (by decide) (by decide) hc
  rw [Char.isAlphanum, hdigit, Bool.or_true]

theorem trimEnd_bit (on : Bool) : trimEnd (bit on) = bit on := by cases on <;> rfl

theorem trimEnd_orDefault (ht : trimEnd t = t) (hu : trimEnd u = u) :
    trimEnd (orDefault t u) = orDefault t u := by
  rw [orDefault]
  split_ifs
  · exact hu
  · exact ht

theorem orDefault_of_ne_nil (ht : t ≠ []) : orDefault t u = t := if_neg ht

theorem orDefault_ne_nil (hu : u ≠ []) : orDefault t u ≠ [] := by
  rw [orDefault]
  split_ifs with h
  · exact hu
  · exact h

/-! ## What is read from a file -/

/-- Whatever the file is, what is read from it ends in no space. -/
theorem trimEnd_value (file : Option Text) (v : Var) :
    trimEnd (value (readExistingEnv file) v) = value (readExistingEnv file) v := by
  have hline : ∀ (out : Existing) (raw : Text), (∀ k x, out.get? k = some x → trimEnd x = x) →
      ∀ k x, (readLine out raw).get? k = some x → trimEnd x = x := by
    intro out raw hout k x hx
    rw [readLine] at hx
    split_ifs at hx
    · exact hout k x hx
    · rw [InsMap.get?_set] at hx
      split_ifs at hx
      · refine Option.some.inj hx ▸ trimEnd_of_suffix ?_ (trimEnd_trim raw)
        exact (List.tail_suffix _).trans (List.dropWhile_suffix _)
      · exact hout k x hx
    · exact hout k x hx
  have hfold : ∀ (ls : List Text) (out : Existing),
      (∀ k x, out.get? k = some x → trimEnd x = x) →
        ∀ k x, (ls.foldl readLine out).get? k = some x → trimEnd x = x := by
    intro ls
    induction ls with
    | nil => exact fun out hout => hout
    | cons raw ls ih => exact fun out hout => ih _ (hline out raw hout)
  have hempty : ∀ k x, (∅ : Existing).get? k = some x → trimEnd x = x :=
    fun k x hx => absurd hx.symm (Option.some_ne_none x)
  rw [value]
  cases hx : (readExistingEnv file).get? v.name with
  | none => rfl
  | some x =>
    cases file with
    | none => exact hempty _ x hx
    | some text => exact hfold (splitLines text) ∅ hempty _ x hx

/-- What a run reads of a variable that the last one has written. -/
theorem value_readExistingEnv {env : Env} {text : Text}
    (h : renderEnvFile Var.name env = .ok text) (v : Var) :
    value (readExistingEnv (some text)) v = trimEnd ((env.get? v).getD []) := by
  have hfind : ∀ l : List (Var × Text),
      InsMap.find v.name (l.map fun p => (p.1.name, trimEnd p.2)) =
        (InsMap.find v l).map trimEnd := by
    intro l
    induction l with
    | nil => rfl
    | cons p l ih =>
      simp only [List.map_cons, InsMap.find, Var.name_injective.eq_iff, ih]
      split_ifs <;> rfl
  have hentries := entries_readExistingEnv Var.isName_name Var.name_injective h
  rw [value, InsMap.get?, hentries, hfind]
  change ((env.get? v).map trimEnd).getD [] = _
  cases env.get? v <;> rfl

/-! ## What a run resolves -/

/-- The texts of a mode end in no space. -/
structure CfgOk (cfg : Cfg) : Prop where
  httpPort : trimEnd cfg.httpPort = cfg.httpPort
  httpsPort : trimEnd cfg.httpsPort = cfg.httpsPort
  httpsContainerPort : trimEnd cfg.httpsContainerPort = cfg.httpsContainerPort
  origin : trimEnd cfg.origin = cfg.origin
  nodeEnv : trimEnd cfg.nodeEnv = cfg.nodeEnv
  cookieSecure : trimEnd cfg.cookieSecure = cfg.cookieSecure
  s3PublicDefault : trimEnd cfg.s3PublicDefault = cfg.s3PublicDefault

theorem assertHost_ok {label host : Text} (h : assertHost label t = .ok host) :
    host ≠ [] ∧ trimEnd host = host := by
  obtain ⟨u, -, h⟩ := bind_eq_ok.1 h
  split_ifs at h with hne
  obtain rfl := Except.ok.inj h
  exact ⟨hne, trimEnd_trim u⟩

theorem trimEnd_port (t : Text) (n : ℕ) : trimEnd (t ++ decimal n) = t ++ decimal n :=
  trimEnd_append Nat.toDigits_ne_nil (trimEnd_decimal n) t

theorem cfgOk {mode : Mode} {opts : Opts} {cfg : Cfg} (h : computeModeConfig mode opts = .ok cfg) :
    CfgOk cfg := by
  cases mode with
  | lan =>
    obtain ⟨host, -, h⟩ := bind_eq_ok.1 h
    obtain ⟨port, -, rfl⟩ := map_eq_ok.1 h
    exact ⟨trimEnd_decimal _, trimEnd_decimal _, trimEnd_decimal _,
      by simpa using trimEnd_port ("https://".toList ++ host ++ [':']) port, rfl, rfl, rfl⟩
  | domain =>
    obtain ⟨domain, hdomain, h⟩ := bind_eq_ok.1 h
    obtain ⟨email, -, rfl⟩ := map_eq_ok.1 h
    obtain ⟨hne, htrim⟩ := assertHost_ok hdomain
    exact ⟨rfl, rfl, rfl, trimEnd_append hne htrim _, rfl, rfl, rfl⟩
  | «local» =>
    obtain ⟨port, -, rfl⟩ := map_eq_ok.1 h
    exact ⟨trimEnd_decimal _, trimEnd_decimal _, rfl, trimEnd_port _ port, rfl, rfl, rfl⟩

theorem normalizeSubject_ok (h : normalizeSubject t = .ok u) : trimEnd u = u ∧ u ≠ [] := by
  obtain ⟨w, -, rfl⟩ := map_eq_ok.1 h
  have htrim : trimEnd (orDefault (trim w) DEFAULT_SUBJECT) = orDefault (trim w) DEFAULT_SUBJECT :=
    trimEnd_orDefault (trimEnd_trim w) (by decide)
  have hne : orDefault (trim w) DEFAULT_SUBJECT ≠ [] := orDefault_ne_nil (by decide)
  dsimp only
  split_ifs
  · exact ⟨htrim, hne⟩
  · exact ⟨trimEnd_append hne htrim _, List.append_ne_nil_of_right_ne_nil _ hne⟩

/-- The keys are those of the file, if it has a pair, and else those that were drawn. -/
theorem resolveVapid_ok {subject : Text} {vapid : Vapid}
    (h : resolveVapid existing subject d = .ok vapid) :
    vapid.publicKey = (if havePair existing then value existing .OT_VAPID_PUBLIC_KEY
      else d.vapidPublicKey.text) ∧
    vapid.privateKey = (if havePair existing then value existing .OT_VAPID_PRIVATE_KEY
      else d.vapidPrivateKey.text) ∧ trimEnd vapid.subject = vapid.subject := by
  rw [resolveVapid] at h
  split_ifs at h ⊢
  · obtain ⟨u, hu, rfl⟩ := map_eq_ok.1 h
    exact ⟨rfl, rfl, (normalizeSubject_ok hu).1⟩
  · obtain ⟨u, hu, rfl⟩ := map_eq_ok.1 h
    exact ⟨rfl, rfl, (normalizeSubject_ok hu).1⟩

theorem parseDriver_text (driver : Driver) : parseDriver driver.text = some driver := by
  cases driver <;> decide

theorem resolveMediaDriver_text (driver : Driver) (existing : Existing) :
    resolveMediaDriver driver.text existing = driver := by
  rw [resolveMediaDriver, parseDriver_text, Option.getD_some]

/-- Without a choice, the driver of the run before stays. -/
theorem resolveMediaDriver_previous {driver : Driver} (ht : parseDriver t = none)
    (hprevious : value existing .OT_MEDIA_DRIVER = driver.text) :
    resolveMediaDriver t existing = driver := by
  rw [resolveMediaDriver, ht, hprevious, parseDriver_text]
  rfl

theorem trimEnd_bundledUrl (cfg : Cfg) : trimEnd (bundledUrl cfg) = bundledUrl cfg :=
  trimEnd_append (by decide) (by decide) _

theorem trim_bundledUrl (cfg : Cfg) : trim (bundledUrl cfg) = bundledUrl cfg := by
  have hend := trimEnd_bundledUrl cfg
  have hhead : ∃ c cs, bundledUrl cfg = c :: cs ∧ isSpace c = false := by
    rw [bundledUrl]
    split_ifs <;> exact ⟨'w', _, rfl, by decide⟩
  obtain ⟨c, cs, hcons, hc⟩ := hhead
  rw [hcons] at hend ⊢
  rw [trim_of_head hc, hend]

/-- The server that a run settles on: none, that of the operator, or the bundled one. -/
theorem resolveLivekit_ok {cfg : Cfg} {flags : Flags} {livekit lk : Livekit}
    (h : resolveLivekit cfg flags livekit existing d = .ok lk) :
    (lk = .off ∧ (flags.CALLS && (isExternal cfg livekit || livekit.bundled)) = false) ∨
    (flags.CALLS = true ∧ isExternal cfg livekit = true ∧ SingleLine (trim livekit.url) ∧
      SingleLine (trim livekit.key) ∧ SingleLine (trim livekit.secret) ∧
      lk = ⟨false, trim livekit.url, trim livekit.key, trim livekit.secret⟩) ∨
    (flags.CALLS = true ∧ isExternal cfg livekit = false ∧ livekit.bundled = true ∧
      lk = ⟨true, bundledUrl cfg,
        orDefault livekit.key (orDefault (value existing .OT_LIVEKIT_API_KEY)
          ("APIlite".toList ++ d.livekitKey.text)),
        orDefault livekit.secret (orDefault (value existing .OT_LIVEKIT_API_SECRET)
          d.livekitSecret.text)⟩) := by
  rw [resolveLivekit] at h
  split_ifs at h with hcalls hexternal hbundled
  · exact .inl ⟨(Except.ok.inj h).symm, by simp [Bool.eq_false_of_not_eq_true' hcalls]⟩
  · obtain ⟨url, hurl, h⟩ := bind_eq_ok.1 h
    obtain ⟨key, hkey, h⟩ := bind_eq_ok.1 h
    obtain ⟨secret, hsecret, rfl⟩ := map_eq_ok.1 h
    obtain ⟨rfl, hurl'⟩ := assertSingleLine_eq_ok.1 hurl
    obtain ⟨rfl, hkey'⟩ := assertSingleLine_eq_ok.1 hkey
    obtain ⟨rfl, hsecret'⟩ := assertSingleLine_eq_ok.1 hsecret
    exact .inr (.inl ⟨by simpa using hcalls, hexternal, hurl', hkey', hsecret', rfl⟩)
  · exact .inl ⟨(Except.ok.inj h).symm, by simp [hexternal, Bool.eq_false_of_not_eq_true' hbundled]⟩
  · exact .inr (.inr ⟨by simpa using hcalls, eq_false_of_ne_true hexternal, by simpa using hbundled,
      (Except.ok.inj h).symm⟩)

/-- What was resolved is resolved to itself: the keys are settled once. -/
theorem resolveLivekit_resolved {cfg : Cfg} {flags : Flags} {livekit lk : Livekit}
    (h : resolveLivekit cfg flags livekit existing d = .ok lk) :
    resolveLivekit cfg flags lk existing d = .ok lk := by
  rcases resolveLivekit_ok h with ⟨rfl, -⟩ | ⟨hcalls, hexternal, hurl, hkey, hsecret, rfl⟩ |
    ⟨hcalls, -, -, rfl⟩
  · have hoff : isExternal cfg .off = false := rfl
    rw [resolveLivekit, hoff]
    cases flags.CALLS <;> rfl
  · have hsame : isExternal cfg ⟨false, trim livekit.url, trim livekit.key,
        trim livekit.secret⟩ = true := by
      rw [isExternal, trim_trim]
      exact hexternal
    rw [resolveLivekit, hcalls, hsame]
    simp only [trim_trim, assertSingleLine_eq_ok.2 ⟨rfl, hurl⟩,
      assertSingleLine_eq_ok.2 ⟨rfl, hkey⟩, assertSingleLine_eq_ok.2 ⟨rfl, hsecret⟩]
    rfl
  · have hown : ∀ key secret, isExternal cfg ⟨true, bundledUrl cfg, key, secret⟩ = false := by
      intro key secret
      simp [isExternal, trim_bundledUrl]
    rw [resolveLivekit, hcalls, hown, if_neg (by simp), if_neg (by simp), if_neg (by simp)]
    rw [orDefault_of_ne_nil (orDefault_ne_nil (orDefault_ne_nil (by simp))),
      orDefault_of_ne_nil (orDefault_ne_nil (orDefault_ne_nil d.livekitSecret.ne_nil))]

/-! ## The variables of a run -/

section
variable {parseUrl : Text → Option Url} {cfg : Cfg} {flags : Flags} {vapid : Option Vapid}
  {s3PublicUrl admin : Text} {lk : Livekit} {driver : Driver} {env : Env}

theorem get?_keepSecret_ne (env : Env) (key k : Var) (h : key ≠ k) :
    (keepSecret existing vapid env key).get? k = env.get? k := by
  rw [keepSecret]
  split_ifs
  · rfl
  · rfl
  · exact InsMap.get?_set_ne _ _ (Ne.symm h)
  · rfl

/-- A secret of the file replaces the one that was drawn. -/
theorem get?_keepSecret_self (env : Env) (key : Var) :
    (keepSecret existing vapid env key).get? key =
      (if value existing key = [] then env.get? key
        else if key.isVapid && vapid.isSome then env.get? key
        else (env.get? key).map fun _ => value existing key) := by
  rw [keepSecret]
  split_ifs with hempty hvapid hhas
  · rfl
  · rfl
  · obtain ⟨x, hx⟩ := InsMap.has_iff.1 hhas
    rw [InsMap.get?_set_self, hx]
    rfl
  · rw [InsMap.has_eq_false.1 (eq_false_of_ne_true hhas)]
    rfl

theorem get?_keepSecrets (env : Env) (v : Var) :
    (PERSISTENT_SECRETS.foldl (keepSecret existing vapid) env).get? v =
      if v ∈ PERSISTENT_SECRETS then (keepSecret existing vapid env v).get? v
      else env.get? v := by
  have hnodup : (PERSISTENT_SECRETS.map id).Nodup := by decide
  split_ifs with hv
  · rw [get?_keepSecret_self]
    exact InsMap.get?_foldl id
      (fun key o => if value existing key = [] then o else if key.isVapid && vapid.isSome then o
        else o.map fun _ => value existing key)
      (fun m a k h => get?_keepSecret_ne m a k h) (fun m a => get?_keepSecret_self m a) hnodup hv
      env
  · exact InsMap.get?_foldl_ne id (fun m a k h => get?_keepSecret_ne m a k h)
      (by rwa [List.map_id]) env

/-- The variables with those of push, if it is on. -/
def pushed (env : Env) : Option Vapid → Env
  | none => env
  | some vapid => withVapid env vapid

theorem get?_pushed (env : Env) (hv : v.isVapid = false) :
    (pushed env vapid).get? v = env.get? v := by
  have hne : v ≠ .OT_VAPID_PUBLIC_KEY ∧ v ≠ .OT_VAPID_PRIVATE_KEY ∧ v ≠ .OT_VAPID_SUBJECT := by
    refine ⟨?_, ?_, ?_⟩ <;> rintro rfl <;> cases hv
  cases vapid with
  | none => rfl
  | some w =>
    rw [pushed, withVapid, InsMap.get?_set_ne _ _ hne.2.2, InsMap.get?_set_ne _ _ hne.2.1,
      InsMap.get?_set_ne _ _ hne.1]

theorem buildEnv_ok {livekit : Livekit} {mediaDriver : Text} (hpush : flags.PUSH = vapid.isSome)
    (h : buildEnv parseUrl cfg flags s3PublicUrl livekit vapid existing admin mediaDriver d =
      .ok env) :
    ∃ lk, resolveLivekit cfg flags livekit existing d = .ok lk ∧
      env = PERSISTENT_SECRETS.foldl (keepSecret existing vapid)
        (pushed (baseEnv parseUrl cfg flags s3PublicUrl lk admin
          (resolveMediaDriver mediaDriver existing) d) vapid) := by
  obtain ⟨lk, hlk, h⟩ := bind_eq_ok.1 h
  obtain ⟨name, hname, rfl⟩ := map_eq_ok.1 h
  obtain ⟨rfl, -⟩ := assertSingleLine_eq_ok.1 hname
  refine ⟨lk, hlk, ?_⟩
  cases vapid with
  | none => simp [hpush, pushed]
  | some w => simp [hpush, pushed]

/-- What the run before has written of a secret wins over what was drawn. -/
theorem get?_secret (env : Env) (hv : v ∈ PERSISTENT_SECRETS) (hnot : v.isVapid = false) {x : Text}
    (hx : env.get? v = some x) :
    (PERSISTENT_SECRETS.foldl (keepSecret existing vapid) (pushed env vapid)).get? v =
      some (orDefault (value existing v) x) := by
  rw [get?_keepSecrets, if_pos hv, get?_keepSecret_self, get?_pushed env hnot, hx, orDefault, hnot]
  split_ifs with hempty hfalse
  · rfl
  · exact absurd hfalse (by simp)
  · rfl

theorem get?_other (env : Env) (hv : v ∉ PERSISTENT_SECRETS) (hnot : v.isVapid = false) :
    (PERSISTENT_SECRETS.foldl (keepSecret existing vapid) (pushed env vapid)).get? v =
      env.get? v := by
  rw [get?_keepSecrets, if_neg hv, get?_pushed env hnot]

/-- The keys of push are those that were resolved. -/
theorem get?_vapid (existing : Existing) (vapid : Option Vapid) (env : Env)
    (hnone : env.get? .OT_VAPID_PUBLIC_KEY = none ∧
      env.get? .OT_VAPID_PRIVATE_KEY = none ∧ env.get? .OT_VAPID_SUBJECT = none) :
    (PERSISTENT_SECRETS.foldl (keepSecret existing vapid) (pushed env vapid)).get?
        .OT_VAPID_PUBLIC_KEY = vapid.map (·.publicKey) ∧
    (PERSISTENT_SECRETS.foldl (keepSecret existing vapid) (pushed env vapid)).get?
        .OT_VAPID_PRIVATE_KEY = vapid.map (·.privateKey) ∧
    (PERSISTENT_SECRETS.foldl (keepSecret existing vapid) (pushed env vapid)).get?
        .OT_VAPID_SUBJECT = vapid.map fun w => orDefault w.subject DEFAULT_SUBJECT := by
  obtain ⟨hpublic, hprivate, hsubject⟩ := hnone
  rw [get?_keepSecrets, get?_keepSecrets, get?_keepSecrets, if_pos (by decide), if_pos (by decide),
    if_neg (by decide), get?_keepSecret_self, get?_keepSecret_self]
  cases vapid with
  | none => simp [pushed, hpublic, hprivate, hsubject]
  | some w => simp [pushed, withVapid, Var.isVapid, InsMap.get?_set]

/-! ## Spaces at the ends of values -/

theorem trimEnd_ite {c : Prop} [Decidable c] (ht : trimEnd t = t) (hu : trimEnd u = u) :
    trimEnd (if c then t else u) = if c then t else u := by
  split_ifs
  · exact ht
  · exact hu

theorem trimEnd_minioBind (url : Text) :
    trimEnd (minioBind parseUrl cfg url) = minioBind parseUrl cfg url := by
  rw [minioBind]
  split_ifs
  · rfl
  · cases parseUrl url with
    | none => rfl
    | some u => exact trimEnd_ite rfl rfl

/-- Only the keys of the bundled server may end in spaces. -/
theorem trimEnd_baseEntries (hcfg : CfgOk cfg) (hs3 : trimEnd s3PublicUrl = s3PublicUrl)
    (hurl : trimEnd lk.url = lk.url) :
    ∀ p ∈ baseEntries parseUrl cfg flags s3PublicUrl lk admin driver d,
      p.1 ≠ .OT_LIVEKIT_API_KEY → p.1 ≠ .OT_LIVEKIT_API_SECRET → trimEnd p.2 = p.2 := by
  have hmode : trimEnd cfg.mode.text = cfg.mode.text := by cases cfg.mode <;> decide
  have hdriver : trimEnd driver.text = driver.text := by cases driver <;> decide
  have hpublic : trimEnd (cfg.origin ++ "/api".toList) = cfg.origin ++ "/api".toList :=
    trimEnd_append (by decide) (by decide) _
  simp only [baseEntries, List.forall_mem_cons]
  refine ⟨fun _ _ => hmode, fun _ _ => hcfg.origin, fun _ _ => trimEnd_ite rfl rfl,
    fun _ _ => hcfg.httpPort, fun _ _ => hcfg.httpsPort, fun _ _ => hcfg.httpsContainerPort,
    fun _ _ => hcfg.nodeEnv, fun _ _ => hcfg.cookieSecure, fun _ _ => d.dbPassword.trimEnd,
    fun _ _ => d.jwtSecret.trimEnd, fun _ _ => d.totpWrapKey.trimEnd, fun _ _ => hdriver,
    fun _ _ => trimEnd_ite hpublic rfl, fun _ _ => by decide, fun _ _ => d.minioPassword.trimEnd,
    fun _ _ => by decide, fun _ _ => trimEnd_ite (trimEnd_minioBind _) (by decide),
    fun _ _ => trimEnd_ite (trimEnd_orDefault hs3 hcfg.s3PublicDefault) rfl,
    fun _ _ => trimEnd_bit _, fun _ _ => trimEnd_bit _, fun _ _ => trimEnd_bit _,
    fun _ _ => trimEnd_bit _, fun _ _ => trimEnd_bit _, fun _ _ => trimEnd_bit _,
    fun _ _ => trimEnd_bit _, fun _ _ => trimEnd_bit _, fun _ _ => trimEnd_trim _,
    fun _ _ => trimEnd_ite (by decide) (by decide), fun _ _ => hurl,
    fun h => absurd rfl h, fun _ h => absurd rfl h, fun _ _ => trimEnd_ite (by decide) rfl,
    fun _ _ => trimEnd_ite (by decide) rfl, fun _ _ => trimEnd_ite rfl (by decide),
    fun _ h => absurd h List.not_mem_nil⟩

theorem trimEnd_orDefault_iff (hu : trimEnd u = u) :
    trimEnd (orDefault t u) = orDefault t u ↔ trimEnd t = t := by
  rw [orDefault]
  split_ifs with h
  · exact iff_of_true hu (by rw [h]; rfl)
  · exact Iff.rfl

theorem livekit_plain_iff {a : Answers} {file : Option Text} {lk : Livekit}
    (hcfg : computeModeConfig a.mode a.opts = .ok cfg)
    (h : resolveLivekit cfg a.flags a.livekit (readExistingEnv file) d = .ok lk) :
    (trimEnd lk.key = lk.key ∧ trimEnd lk.secret = lk.secret) ↔ a.keysPlain = true := by
  rw [Answers.keysPlain, hcfg]
  dsimp only
  rcases resolveLivekit_ok h with ⟨rfl, hoff⟩ | ⟨hcalls, hexternal, -, -, -, rfl⟩ |
    ⟨hcalls, hown, hbundled, rfl⟩
  · refine iff_of_true ⟨rfl, rfl⟩ ?_
    cases hcalls : a.flags.CALLS <;> simp_all
  · exact iff_of_true ⟨trimEnd_trim _, trimEnd_trim _⟩ (by simp [hexternal])
  · have hkey : trimEnd (orDefault (value (readExistingEnv file) .OT_LIVEKIT_API_KEY)
        ("APIlite".toList ++ d.livekitKey.text)) = _ :=
      trimEnd_orDefault (trimEnd_value file _)
        (trimEnd_append d.livekitKey.ne_nil d.livekitKey.trimEnd _)
    have hsecret : trimEnd (orDefault (value (readExistingEnv file) .OT_LIVEKIT_API_SECRET)
        d.livekitSecret.text) = _ :=
      trimEnd_orDefault (trimEnd_value file _) d.livekitSecret.trimEnd
    rw [trimEnd_orDefault_iff hkey, trimEnd_orDefault_iff hsecret]
    simp [hcalls, hown, hbundled]

end

theorem livekit_url_plain {cfg : Cfg} {flags : Flags} {livekit lk : Livekit}
    (h : resolveLivekit cfg flags livekit existing d = .ok lk) : trimEnd lk.url = lk.url := by
  rcases resolveLivekit_ok h with ⟨rfl, -⟩ | ⟨-, -, -, -, -, rfl⟩ | ⟨-, -, -, rfl⟩
  · rfl
  · exact trimEnd_trim _
  · exact trimEnd_bundledUrl cfg

/-- The secret that is drawn for a variable which every run writes. -/
def Draws.secret (d : Draws) : Var → Option Token
  | .OT_DB_PASSWORD => some d.dbPassword
  | .OT_JWT_SECRET => some d.jwtSecret
  | .OT_TOTP_WRAP_KEY => some d.totpWrapKey
  | .OT_MINIO_PASSWORD => some d.minioPassword
  | _ => none

/-- What a run writes, given what it reads. -/
structure Outcome (a : Answers) (existing : Existing) (d : Draws) (env : Env) : Prop where
  secret : ∀ v token, d.secret v = some token →
    env.get? v = some (orDefault (value existing v) token.text)
  driver : env.get? .OT_MEDIA_DRIVER = some (resolveMediaDriver a.mediaDriver existing).text
  publicKey : env.get? .OT_VAPID_PUBLIC_KEY = if a.flags.PUSH then
    some (if havePair existing then value existing .OT_VAPID_PUBLIC_KEY
      else d.vapidPublicKey.text) else none
  privateKey : env.get? .OT_VAPID_PRIVATE_KEY = if a.flags.PUSH then
    some (if havePair existing then value existing .OT_VAPID_PRIVATE_KEY
      else d.vapidPrivateKey.text) else none
  plain : (∀ p ∈ env.entries, trimEnd p.2 = p.2) ↔ a.keysPlain = true

theorem exists_secret (hv : v ∈ PERSISTENT_SECRETS) (hnot : v.isVapid = false) (d : Draws) :
    ∃ token, d.secret v = some token := by
  simp only [PERSISTENT_SECRETS, List.mem_cons, List.not_mem_nil, or_false] at hv
  rcases hv with rfl | rfl | rfl | rfl | rfl | rfl
  · exact ⟨_, rfl⟩
  · exact ⟨_, rfl⟩
  · exact ⟨_, rfl⟩
  · exact ⟨_, rfl⟩
  · cases hnot
  · cases hnot

theorem secret_eq_some {token : Token} (h : d.secret v = some token) :
    v ∈ PERSISTENT_SECRETS ∧ v.isVapid = false := by
  cases v <;> cases h <;> decide

/-- The pair of a run, if push is on. -/
theorem vapid_keys {a : Answers} {vapid : Option Vapid}
    (h : (if a.flags.PUSH then (resolveVapid existing a.subject d).map some else .ok none) =
      .ok vapid) :
    a.flags.PUSH = vapid.isSome ∧
    vapid.map (·.publicKey) = (if a.flags.PUSH then some (if havePair existing then
      value existing .OT_VAPID_PUBLIC_KEY else d.vapidPublicKey.text) else none) ∧
    vapid.map (·.privateKey) = (if a.flags.PUSH then some (if havePair existing then
      value existing .OT_VAPID_PRIVATE_KEY else d.vapidPrivateKey.text) else none) ∧
    ∀ w ∈ vapid, trimEnd w.subject = w.subject := by
  cases hon : a.flags.PUSH with
  | false =>
    rw [hon] at h
    obtain rfl := Except.ok.inj h
    exact ⟨rfl, rfl, rfl, fun w hw => absurd hw (Option.not_mem_none w)⟩
  | true =>
    rw [hon] at h
    obtain ⟨w, hw, rfl⟩ := map_eq_ok.1 h
    obtain ⟨hpublic, hprivate, hsubject⟩ := resolveVapid_ok hw
    exact ⟨rfl, congrArg some hpublic, congrArg some hprivate, fun w' hw' =>
      Option.some.inj hw' ▸ hsubject⟩

theorem outcome {parseUrl : Text → Option Url} {a : Answers} {env : Env}
    (hs3 : trimEnd a.s3PublicUrl = a.s3PublicUrl)
    (h : configure parseUrl a (readExistingEnv file) d = .ok env) :
    Outcome a (readExistingEnv file) d env := by
  obtain ⟨cfg, hcfg, h⟩ := bind_eq_ok.1 h
  obtain ⟨vapid, hvapid, h⟩ := bind_eq_ok.1 h
  split_ifs at h
  obtain ⟨livekit, hlivekit, h⟩ := bind_eq_ok.1 h
  obtain ⟨hpush, hpublicKey, hprivateKey, hcontact⟩ := vapid_keys hvapid
  obtain ⟨lk, hlk, henv⟩ := buildEnv_ok hpush h
  obtain rfl := Except.ok.inj ((resolveLivekit_resolved hlivekit).symm.trans hlk)
  have hpair := get?_vapid (readExistingEnv file) vapid
    (baseEnv parseUrl cfg a.flags a.s3PublicUrl livekit a.adminUsername
      (resolveMediaDriver a.mediaDriver (readExistingEnv file)) d) ⟨rfl, rfl, rfl⟩
  rw [← henv] at hpair
  obtain ⟨hpublic, hprivate, hsubject⟩ := hpair
  have hmem : ∀ v x, (v, x) ∈ env.entries ↔ env.get? v = some x :=
    fun v x => InsMap.get?_eq_some_iff.symm
  have hsecret : ∀ v token, d.secret v = some token →
      env.get? v = some (orDefault (value (readExistingEnv file) v) token.text) := by
    intro v token hv
    obtain ⟨hin, hnot⟩ := secret_eq_some hv
    rw [henv]
    refine get?_secret _ hin hnot ?_
    cases v <;> cases hv <;> rfl
  refine ⟨hsecret, ?_, hpublic.trans hpublicKey, hprivate.trans hprivateKey, ?_, ?_⟩
  · rw [henv]
    exact get?_other _ (by decide) rfl
  · intro hall
    refine (livekit_plain_iff hcfg hlivekit).1
      ⟨hall (.OT_LIVEKIT_API_KEY, _) ((hmem _ _).2 ?_),
        hall (.OT_LIVEKIT_API_SECRET, _) ((hmem _ _).2 ?_)⟩
    · rw [henv]
      exact get?_other _ (by decide) rfl
    · rw [henv]
      exact get?_other _ (by decide) rfl
  · rintro hplain ⟨v, x⟩ hx
    obtain ⟨hkey, hkeySecret⟩ := (livekit_plain_iff hcfg hlivekit).2 hplain
    have hget := (hmem v x).1 hx
    dsimp only
    cases hvapidVar : v.isVapid with
    | true =>
      -- The keys are those of the file or those that were drawn.
      have hkeyPlain : ∀ (w : Var) (token : Token), (if a.flags.PUSH then
          some (if havePair (readExistingEnv file) then value (readExistingEnv file) w
            else token.text) else none) = some x → trimEnd x = x := by
        intro w token hsome
        split_ifs at hsome
        · exact Option.some.inj hsome ▸ trimEnd_value file w
        · exact Option.some.inj hsome ▸ token.trimEnd
      cases v <;> cases hvapidVar
      · exact hkeyPlain _ _ ((hpublic.trans hpublicKey).symm.trans hget)
      · exact hkeyPlain _ _ ((hprivate.trans hprivateKey).symm.trans hget)
      · obtain ⟨w, hw, rfl⟩ := Option.map_eq_some_iff.1 (hsubject.symm.trans hget)
        exact trimEnd_orDefault (hcontact w hw) (by decide)
    | false =>
      by_cases hin : v ∈ PERSISTENT_SECRETS
      · obtain ⟨token, htoken⟩ := exists_secret hin hvapidVar d
        obtain rfl := Option.some.inj ((hsecret v token htoken).symm.trans hget)
        exact trimEnd_orDefault (trimEnd_value file v) token.trimEnd
      · rw [henv, get?_other _ hin hvapidVar] at hget
        have hbase := InsMap.get?_eq_some_iff.1 hget
        by_cases hk : v = .OT_LIVEKIT_API_KEY
        · subst hk
          exact Option.some.inj hget ▸ hkey
        · by_cases hs : v = .OT_LIVEKIT_API_SECRET
          · subst hs
            exact Option.some.inj hget ▸ hkeySecret
          · exact trimEnd_baseEntries (cfgOk hcfg) hs3 (livekit_url_plain hlivekit) (v, x) hbase
              hk hs

end

/-! ## Runs -/

section
variable {parseUrl : Text → Option Url} {s s' : State} {e : Event} {env : Env} {text : Text}

theorem generate_ok
    (h : generate parseUrl e.frontend e.answers s.file e.draws = .ok (env, text)) :
    Outcome (e.answers.prepare e.frontend s.existing) s.existing e.draws env ∧
      renderEnvFile Var.name env = .ok text := by
  obtain ⟨env', henv, h⟩ := bind_eq_ok.1 h
  obtain ⟨text', htext, hpair⟩ := map_eq_ok.1 h
  obtain ⟨rfl, rfl⟩ := Prod.mk.inj hpair
  refine ⟨outcome ?_ henv, htext⟩
  cases e.frontend with
  | text => exact trimEnd_ite (trimEnd_trim _) rfl
  | wizard => exact trimEnd_trim _

theorem prepare_flags (frontend : Frontend) (a : Answers) (existing : Existing) :
    (a.prepare frontend existing).flags = a.flags := by cases frontend <;> rfl

theorem prepare_mediaDriver (frontend : Frontend) (a : Answers) (existing : Existing) :
    (a.prepare frontend existing).mediaDriver = (a.driver frontend existing).text := by
  cases frontend <;> rfl

/-- What the file still has of what was written. -/
structure Sound (s : State) : Prop where
  secret : ∀ v x, v ∈ PERSISTENT_SECRETS → v.isVapid = false → s.written v = some x →
    value s.existing v = x ∧ x ≠ []
  driver : ∀ x, s.written .OT_MEDIA_DRIVER = some x →
    ∃ driver : Driver, x = driver.text ∧ value s.existing .OT_MEDIA_DRIVER = driver.text
  pair : havePair s.existing = true → ∀ v ∈ [Var.OT_VAPID_PUBLIC_KEY, .OT_VAPID_PRIVATE_KEY],
    ∀ x, s.written v = some x → value s.existing v = x
  both : (s.written .OT_VAPID_PUBLIC_KEY).isSome = (s.written .OT_VAPID_PRIVATE_KEY).isSome

theorem Sound.generate (hs : Sound s)
    (h : generate parseUrl e.frontend e.answers s.file e.draws = .ok (env, text)) :
    Sound ⟨some text, fun v => (env.get? v).or (s.written v)⟩ := by
  obtain ⟨hout, htext⟩ := generate_ok h
  have hpublic := hout.publicKey
  have hprivate := hout.privateKey
  -- What the run writes is read again.
  have hread : ∀ v x y, env.get? v = some y → trimEnd y = y →
      (env.get? v).or (s.written v) = some x →
      value (readExistingEnv (some text)) v = x ∧ x = y := by
    intro v x y hy htrim hx
    rw [hy] at hx
    obtain rfl := Option.some.inj hx
    rw [value_readExistingEnv htext, hy]
    exact ⟨htrim, rfl⟩
  refine ⟨fun v x hin hnot hx => ?_, fun x hx => ?_, fun hpair v hv x hx => ?_, ?_⟩
  · obtain ⟨token, htoken⟩ := exists_secret hin hnot e.draws
    obtain ⟨hvalue, rfl⟩ := hread v x _ (hout.secret v token htoken)
      (trimEnd_orDefault (trimEnd_value _ v) token.trimEnd) hx
    exact ⟨hvalue, orDefault_ne_nil token.ne_nil⟩
  · have htrim : ∀ driver : Driver, trimEnd driver.text = driver.text := by
      rintro (_ | _) <;> decide
    obtain ⟨hvalue, rfl⟩ := hread _ x _ hout.driver (htrim _) hx
    exact ⟨_, rfl, hvalue⟩
  · cases hon : (e.answers.prepare e.frontend s.existing).flags.PUSH with
    | false =>
      rw [hon] at hpublic
      have hnone : value (readExistingEnv (some text)) .OT_VAPID_PUBLIC_KEY = [] := by
        rw [value_readExistingEnv htext, hpublic]
        rfl
      have hpair' : havePair (readExistingEnv (some text)) = true := hpair
      simp [havePair, hnone] at hpair'
    | true =>
      rw [hon, if_pos rfl] at hpublic hprivate
      rcases List.mem_pair.1 hv with rfl | rfl
      · exact (hread _ x _ hpublic
          (trimEnd_ite (trimEnd_value _ _) e.draws.vapidPublicKey.trimEnd) hx).1
      · exact (hread _ x _ hprivate
          (trimEnd_ite (trimEnd_value _ _) e.draws.vapidPrivateKey.trimEnd) hx).1
  · dsimp only
    rw [hpublic, hprivate]
    cases (e.answers.prepare e.frontend s.existing).flags.PUSH with
    | false => exact hs.both
    | true => rfl

theorem sound_step (hs : Sound s) (h : (machine parseUrl).step s e = some s') : Sound s' := by
  obtain ⟨-, h⟩ := Option.ite_none_right_eq_some.1 h
  cases hgenerate : generate parseUrl e.frontend e.answers s.file e.draws with
  | error problem =>
    rw [hgenerate] at h
    exact Option.some.inj h ▸ hs
  | ok out =>
    rw [hgenerate] at h
    obtain rfl := Option.some.inj h
    exact hs.generate hgenerate

theorem sound_of_init (hs : (machine parseUrl).init s) : Sound s := by
  have hnone : ∀ v x, s.written v ≠ some x := by
    intro v x
    rw [show s.written = fun _ => none from hs]
    exact Option.some_ne_none x ∘ Eq.symm
  exact ⟨fun v x _ _ hx => absurd hx (hnone v x), fun x hx => absurd hx (hnone _ x),
    fun _ v _ x hx => absurd hx (hnone v x), by rw [show s.written = fun _ => none from hs]⟩

/-! ## What a run keeps -/

/-- Push is off, no pair was written before, or the file has it. -/
def State.keepsPair (s : State) (a : Answers) : Bool :=
  !a.flags.PUSH || s.written .OT_VAPID_PUBLIC_KEY = none || havePair s.existing

/-- The operator is asked where the objects live, or they are in files. -/
def State.keepsDriver (s : State) (frontend : Frontend) (a : Answers) : Bool :=
  frontend = .wizard || a.flags.wantsObjects || s.written .OT_MEDIA_DRIVER ≠ some Driver.s3.text

theorem secrets_iff (hs : Sound s) (hfresh : s.isFresh e.draws = true)
    (h : generate parseUrl e.frontend e.answers s.file e.draws = .ok (env, text)) :
    (∀ v ∈ PERSISTENT_SECRETS, ∀ x y, s.written v = some x → env.get? v = some y → y = x) ↔
      s.keepsPair e.answers = true := by
  obtain ⟨hout, -⟩ := generate_ok h
  have hpublic := hout.publicKey
  have hprivate := hout.privateKey
  rw [prepare_flags] at hpublic hprivate
  constructor
  · intro hall
    by_contra hnot
    obtain ⟨⟨hon, hwritten⟩, hpair⟩ : (e.answers.flags.PUSH = true ∧
        s.written .OT_VAPID_PUBLIC_KEY ≠ none) ∧ havePair s.existing = false := by
      simpa [State.keepsPair] using hnot
    obtain ⟨x, hx⟩ := Option.ne_none_iff_exists'.1 hwritten
    rw [hon, if_pos rfl, hpair, if_neg Bool.false_ne_true] at hpublic
    have hsame := hall _ (by decide) x _ hx hpublic
    exact of_decide_eq_true hfresh (hx.trans (congrArg some hsame.symm))
  · intro hkeeps v hin x y hx hy
    cases hnot : v.isVapid with
    | false =>
      obtain ⟨token, htoken⟩ := exists_secret hin hnot e.draws
      obtain ⟨hvalue, hne⟩ := hs.secret v x hin hnot hx
      rw [hout.secret v token htoken, hvalue, orDefault_of_ne_nil hne] at hy
      exact (Option.some.inj hy).symm
    | true =>
      -- The pair of the file is what was written.
      have hkept : ∀ w token, w ∈ [Var.OT_VAPID_PUBLIC_KEY, .OT_VAPID_PRIVATE_KEY] →
          s.written w = some x →
          (if e.answers.flags.PUSH then some (if havePair s.existing then value s.existing w
            else token) else none) = some y → y = x := by
        intro w token hw hwritten hsome
        split_ifs at hsome with hon hpair
        · exact (Option.some.inj hsome).symm.trans (hs.pair hpair w hw x hwritten)
        · have hnone : s.written .OT_VAPID_PUBLIC_KEY = none := by
            simpa [State.keepsPair, hon, hpair] using hkeeps
          have hother : s.written .OT_VAPID_PRIVATE_KEY = none := by
            have hboth := hs.both
            rw [hnone] at hboth
            exact Option.isNone_iff_eq_none.1 (Option.isSome_eq_false_iff.1 hboth.symm)
          rcases List.mem_pair.1 hw with rfl | rfl
          · exact absurd (hnone.symm.trans hwritten).symm (Option.some_ne_none x)
          · exact absurd (hother.symm.trans hwritten).symm (Option.some_ne_none x)
      simp only [PERSISTENT_SECRETS, List.mem_cons, List.not_mem_nil, or_false] at hin
      rcases hin with rfl | rfl | rfl | rfl | rfl | rfl
      · cases hnot
      · cases hnot
      · cases hnot
      · cases hnot
      · exact hkept _ _ (by decide) hx (hpublic.symm.trans hy)
      · exact hkept _ _ (by decide) hx (hprivate.symm.trans hy)

theorem driver_iff (hs : Sound s)
    (h : generate parseUrl e.frontend e.answers s.file e.draws = .ok (env, text)) :
    (e.answers.choosesDriver e.frontend = false → ∀ x, s.written .OT_MEDIA_DRIVER = some x →
      env.get? .OT_MEDIA_DRIVER = some x) ↔ s.keepsDriver e.frontend e.answers = true := by
  have hdriver := (generate_ok h).1.driver
  rw [prepare_mediaDriver, resolveMediaDriver_text] at hdriver
  constructor
  · intro hall
    by_contra hnot
    obtain ⟨⟨hfrontend, hobjects⟩, hwritten⟩ : (e.frontend ≠ .wizard ∧
        e.answers.flags.wantsObjects = false) ∧
          s.written .OT_MEDIA_DRIVER = some Driver.s3.text := by
      simpa [State.keepsDriver] using hnot
    have htext : e.frontend = .text := by
      cases hf : e.frontend with
      | text => rfl
      | wizard => exact absurd hf hfrontend
    have hkept := hall (by simp [Answers.choosesDriver, htext, hobjects]) _ hwritten
    rw [hdriver, htext, Answers.driver, Answers.typedDriver, hobjects,
      if_neg Bool.false_ne_true] at hkept
    exact absurd (Option.some.inj hkept) (by decide)
  · intro hkeeps hnot x hx
    obtain ⟨driver, rfl, hvalue⟩ := hs.driver x hx
    rw [hdriver]
    congr 2
    cases hf : e.frontend with
    | wizard =>
      rw [hf, Answers.choosesDriver, Option.isSome_eq_false_iff, Option.isNone_iff_eq_none] at hnot
      exact resolveMediaDriver_previous hnot hvalue
    | text =>
      rw [hf] at hnot hkeeps
      rw [Answers.driver, Answers.typedDriver]
      cases hobjects : e.answers.flags.wantsObjects with
      | true =>
        rw [Answers.choosesDriver, hobjects, Bool.true_and, Option.isSome_eq_false_iff,
          Option.isNone_iff_eq_none] at hnot
        exact resolveMediaDriver_previous hnot hvalue
      | false =>
        cases driver with
        | fs => rfl
        | s3 => simp [State.keepsDriver, hobjects, hx] at hkeeps

theorem read_iff
    (h : generate parseUrl e.frontend e.answers s.file e.draws = .ok (env, text)) :
    (readExistingEnv (some text)).entries = env.entries.map (fun p => (p.1.name, p.2)) ↔
      (e.answers.prepare e.frontend s.existing).keysPlain = true := by
  obtain ⟨hout, htext⟩ := generate_ok h
  rw [← hout.plain, entries_readExistingEnv Var.isName_name Var.name_injective htext,
    List.map_inj_left]
  simp only [Prod.mk.injEq, true_and]

/-- The run leaves what the runs before have written. -/
def State.keeps (parseUrl : Text → Option Url) (s : State) (e : Event) : Bool :=
  match generate parseUrl e.frontend e.answers s.file e.draws with
  | .error _ => true
  | .ok _ => s.keepsPair e.answers && s.keepsDriver e.frontend e.answers &&
    (e.answers.prepare e.frontend s.existing).keysPlain

theorem keeps_run_iff (hs : Sound s) (hfresh : s.isFresh e.draws = true) :
    (∀ env text, generate parseUrl e.frontend e.answers s.file e.draws = .ok (env, text) →
      Keeps s e env text) ↔ s.keeps parseUrl e = true := by
  rw [State.keeps]
  cases hgenerate : generate parseUrl e.frontend e.answers s.file e.draws with
  | error problem => exact iff_of_true (fun env text h => by cases h) rfl
  | ok out =>
    obtain ⟨env, text⟩ := out
    have hsecrets := secrets_iff hs hfresh hgenerate
    have hdriver := driver_iff hs hgenerate
    have hread := read_iff hgenerate
    dsimp only
    rw [Bool.and_eq_true, Bool.and_eq_true, ← hsecrets, ← hdriver, ← hread]
    constructor
    · intro h
      obtain ⟨h₁, h₂, h₃⟩ := h env text rfl
      exact ⟨⟨h₁, h₂⟩, h₃⟩
    · rintro ⟨⟨h₁, h₂⟩, h₃⟩ env' text' h
      obtain ⟨rfl, rfl⟩ := Prod.mk.inj (Except.ok.inj h)
      exact ⟨h₁, h₂, h₃⟩

/-- Each run of a sequence leaves the secrets and the driver of the runs before, and is read again
    as it was written, exactly if push is not switched on again after it was off, the object store
    is not left without a question, and no key given for the bundled server ends in spaces. -/
theorem rerun_iff (parseUrl : Text → Option Url) {s t : State} {es : List Event}
    (hs : (machine parseUrl).init s) (h : (machine parseUrl).run s es = some t) :
    (∀ es₁ e es₂, es = es₁ ++ e :: es₂ → ∀ u v, (machine parseUrl).run s es₁ = some u →
      (machine parseUrl).step u e = some v → ∀ env text,
        generate parseUrl e.frontend e.answers u.file e.draws = .ok (env, text) →
          Keeps u e env text) ↔
    ((machine parseUrl).restrict fun s e => s.keeps parseUrl e = true).run s es = some t := by
  have hstep : ∀ u e v, Sound u → (machine parseUrl).step u e = some v →
      ((∀ env text, generate parseUrl e.frontend e.answers u.file e.draws = .ok (env, text) →
        Keeps u e env text) ↔ u.keeps parseUrl e = true) :=
    fun u e v hu hv => keeps_run_iff hu (Option.ite_none_right_eq_some.1 hv).1
  exact Machine.run_events_iff (R := fun u e _ => ∀ env text,
      generate parseUrl e.frontend e.answers u.file e.draws = .ok (env, text) → Keeps u e env text)
    (fun _ _ _ => sound_step) hstep (sound_of_init hs) h

end

namespace Sample

def token (c : Char) (h : (c.isAlphanum || c = '-' || c = '_') = true) : Token :=
  ⟨[c], List.cons_ne_nil _ _, fun _ hd => List.mem_singleton.1 hd ▸ h⟩

def draws (c : Char) (h : (c.isAlphanum || c = '-' || c = '_') = true) : Draws :=
  ⟨token c h, token c h, token c h, token c h, token c h, token c h, token c h, token c h⟩

/-- An operator who presses Enter, but for push and calls. -/
def answers (push calls : Bool) : Answers where
  mode := .local
  opts := ⟨[], [], [], [], []⟩
  flags := ⟨true, calls, true, true, push, true, false, true⟩
  mediaDriver := []
  s3PublicUrl := []
  livekit := .off
  subject := []
  adminUsername := []

def fresh : State := ⟨none, fun _ => none⟩

/-- Calls are switched on when push is. -/
def reruns : List Event :=
  [⟨.text, answers true false, draws 'a' rfl⟩, ⟨.wizard, answers true true, draws 'b' rfl⟩]

/-- Push is switched off and on again. -/
def toggled : List Event :=
  [⟨.text, answers true false, draws 'a' rfl⟩, ⟨.text, answers false false, draws 'b' rfl⟩,
    ⟨.text, answers true false, draws 'c' rfl⟩]

end Sample

open Sample

theorem rerun_iff_reruns : ∃ t, (machine fun _ => none).run fresh reruns = some t ∧
    ∀ es₁ e es₂, reruns = es₁ ++ e :: es₂ → ∀ u v,
      (machine fun _ => none).run fresh es₁ = some u → (machine fun _ => none).step u e = some v →
        ∀ env text, generate (fun _ => none) e.frontend e.answers u.file e.draws = .ok (env, text) →
          Keeps u e env text := by
  have hkept : (((machine fun _ => none).restrict fun s e =>
      s.keeps (fun _ => none) e = true).run fresh reruns).isSome = true := by decide +kernel
  obtain ⟨t, ht⟩ := Option.isSome_iff_exists.1 hkept
  have hinit : (machine fun _ => none).init fresh := rfl
  exact ⟨t, Machine.run_of_restrict ht,
    (rerun_iff (fun _ => none) hinit (Machine.run_of_restrict ht)).2 ht⟩

/-- The pair is drawn anew after push was off. -/
theorem pair_redrawn : (machine fun _ => none).init fresh ∧
    ((machine fun _ => none).run fresh (toggled.take 2)).bind (fun u =>
      ((machine fun _ => none).run u (toggled.drop 2)).map fun v =>
        (u.written .OT_VAPID_PUBLIC_KEY, v.written .OT_VAPID_PUBLIC_KEY)) =
          some (some ['a'], some ['c']) :=
  ⟨rfl, by decide +kernel⟩

end OneToThree.Installer
