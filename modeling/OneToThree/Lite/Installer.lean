import OneToThree.Lib.Machine
import OneToThree.Lite.EnvFile

/-!
# The installer

An operator runs the installer in a checkout, by the text dialogue or by the wizard, and runs it
again to change the mode or the features. Each run reads the variables that the last one wrote, and
writes all of them anew.

* `PERSISTENT_SECRETS`: what has to survive, as the volumes and the browsers know it.
* `resolveVapid`, `resolveMediaDriver`, `resolveLivekit`: what depends on the run before.
* `buildEnv`: the variables of a run.
-/

namespace OneToThree.Installer

open EnvFile

/-! ## Variables -/

inductive Var
  | OT_MODE | OT_ORIGIN | OT_BIND | OT_HTTP_PORT | OT_HTTPS_PORT | OT_HTTPS_CONTAINER_PORT
  | OT_NODE_ENV | OT_COOKIE_SECURE | OT_DB_PASSWORD | OT_JWT_SECRET | OT_TOTP_WRAP_KEY
  | OT_MEDIA_DRIVER | OT_MEDIA_PUBLIC_URL | OT_MINIO_USER | OT_MINIO_PASSWORD | OT_MINIO_PORT
  | OT_MINIO_BIND | OT_S3_PUBLIC_URL | OT_ENABLE_MEDIA | OT_ENABLE_CALLS | OT_ENABLE_STICKERS
  | OT_ENABLE_GIF | OT_ENABLE_PUSH | OT_ENABLE_2FA | OT_ENABLE_GUESTS
  | OT_ENABLE_OPEN_REGISTRATION | OT_ADMIN_USERNAME | OT_CALL_MEDIA_MODE | OT_LIVEKIT_URL
  | OT_LIVEKIT_API_KEY | OT_LIVEKIT_API_SECRET | OT_LIVEKIT_ADMIN_URL | OT_LIVEKIT_UDP_PORT
  | OT_LIVEKIT_BIND | OT_VAPID_PUBLIC_KEY | OT_VAPID_PRIVATE_KEY | OT_VAPID_SUBJECT
  deriving DecidableEq

namespace Var

def spelling : Var → String
  | OT_MODE => "OT_MODE"
  | OT_ORIGIN => "OT_ORIGIN"
  | OT_BIND => "OT_BIND"
  | OT_HTTP_PORT => "OT_HTTP_PORT"
  | OT_HTTPS_PORT => "OT_HTTPS_PORT"
  | OT_HTTPS_CONTAINER_PORT => "OT_HTTPS_CONTAINER_PORT"
  | OT_NODE_ENV => "OT_NODE_ENV"
  | OT_COOKIE_SECURE => "OT_COOKIE_SECURE"
  | OT_DB_PASSWORD => "OT_DB_PASSWORD"
  | OT_JWT_SECRET => "OT_JWT_SECRET"
  | OT_TOTP_WRAP_KEY => "OT_TOTP_WRAP_KEY"
  | OT_MEDIA_DRIVER => "OT_MEDIA_DRIVER"
  | OT_MEDIA_PUBLIC_URL => "OT_MEDIA_PUBLIC_URL"
  | OT_MINIO_USER => "OT_MINIO_USER"
  | OT_MINIO_PASSWORD => "OT_MINIO_PASSWORD"
  | OT_MINIO_PORT => "OT_MINIO_PORT"
  | OT_MINIO_BIND => "OT_MINIO_BIND"
  | OT_S3_PUBLIC_URL => "OT_S3_PUBLIC_URL"
  | OT_ENABLE_MEDIA => "OT_ENABLE_MEDIA"
  | OT_ENABLE_CALLS => "OT_ENABLE_CALLS"
  | OT_ENABLE_STICKERS => "OT_ENABLE_STICKERS"
  | OT_ENABLE_GIF => "OT_ENABLE_GIF"
  | OT_ENABLE_PUSH => "OT_ENABLE_PUSH"
  | OT_ENABLE_2FA => "OT_ENABLE_2FA"
  | OT_ENABLE_GUESTS => "OT_ENABLE_GUESTS"
  | OT_ENABLE_OPEN_REGISTRATION => "OT_ENABLE_OPEN_REGISTRATION"
  | OT_ADMIN_USERNAME => "OT_ADMIN_USERNAME"
  | OT_CALL_MEDIA_MODE => "OT_CALL_MEDIA_MODE"
  | OT_LIVEKIT_URL => "OT_LIVEKIT_URL"
  | OT_LIVEKIT_API_KEY => "OT_LIVEKIT_API_KEY"
  | OT_LIVEKIT_API_SECRET => "OT_LIVEKIT_API_SECRET"
  | OT_LIVEKIT_ADMIN_URL => "OT_LIVEKIT_ADMIN_URL"
  | OT_LIVEKIT_UDP_PORT => "OT_LIVEKIT_UDP_PORT"
  | OT_LIVEKIT_BIND => "OT_LIVEKIT_BIND"
  | OT_VAPID_PUBLIC_KEY => "OT_VAPID_PUBLIC_KEY"
  | OT_VAPID_PRIVATE_KEY => "OT_VAPID_PRIVATE_KEY"
  | OT_VAPID_SUBJECT => "OT_VAPID_SUBJECT"

def name (v : Var) : Text := v.spelling.toList

def all : List Var :=
  [OT_MODE, OT_ORIGIN, OT_BIND, OT_HTTP_PORT, OT_HTTPS_PORT, OT_HTTPS_CONTAINER_PORT, OT_NODE_ENV,
    OT_COOKIE_SECURE, OT_DB_PASSWORD, OT_JWT_SECRET, OT_TOTP_WRAP_KEY, OT_MEDIA_DRIVER,
    OT_MEDIA_PUBLIC_URL, OT_MINIO_USER, OT_MINIO_PASSWORD, OT_MINIO_PORT, OT_MINIO_BIND,
    OT_S3_PUBLIC_URL, OT_ENABLE_MEDIA, OT_ENABLE_CALLS, OT_ENABLE_STICKERS, OT_ENABLE_GIF,
    OT_ENABLE_PUSH, OT_ENABLE_2FA, OT_ENABLE_GUESTS, OT_ENABLE_OPEN_REGISTRATION,
    OT_ADMIN_USERNAME, OT_CALL_MEDIA_MODE, OT_LIVEKIT_URL, OT_LIVEKIT_API_KEY,
    OT_LIVEKIT_API_SECRET, OT_LIVEKIT_ADMIN_URL, OT_LIVEKIT_UDP_PORT, OT_LIVEKIT_BIND,
    OT_VAPID_PUBLIC_KEY, OT_VAPID_PRIVATE_KEY, OT_VAPID_SUBJECT]

theorem mem_all (v : Var) : v ∈ all := by cases v <;> decide

theorem isName_name (v : Var) : IsName v.name = true :=
  List.all_eq_true.1 (by decide +kernel : all.all (fun v => IsName v.name) = true) v (mem_all v)

theorem name_injective : Function.Injective name := by
  have hnodup : (all.map name).Nodup := by decide +kernel
  exact fun v w h => List.inj_on_of_nodup_map hnodup (mem_all v) (mem_all w) h

/-- `key.startsWith('OT_VAPID')`. -/
def isVapid : Var → Bool
  | OT_VAPID_PUBLIC_KEY => true
  | OT_VAPID_PRIVATE_KEY => true
  | OT_VAPID_SUBJECT => true
  | _ => false

end Var

abbrev Existing := InsMap Text Text

/-- The value of a variable, or an empty one. -/
def value (existing : Existing) (v : Var) : Text := (existing.get? v.name).getD []

/-- `t || d`. -/
def orDefault (t d : Text) : Text := if t = [] then d else t

/-! ## Modes -/

inductive Mode
  | «local» | lan | domain
  deriving DecidableEq

def Mode.text : Mode → Text
  | «local» => "local".toList
  | lan => "lan".toList
  | domain => "domain".toList

/-- What the operator answers about the mode. A blank text is no answer. -/
structure Opts where
  host : Text
  httpPort : Text
  httpsPort : Text
  domain : Text
  acmeEmail : Text

structure Cfg where
  mode : Mode
  host : Text
  httpPort : Text
  httpsPort : Text
  httpsContainerPort : Text
  origin : Text
  nodeEnv : Text
  cookieSecure : Text
  s3PublicDefault : Text

def isLabel (l : Text) : Bool :=
  l ≠ [] && l.all (fun c => c.isAlphanum || c = '-') && l.head?.all (·.isAlphanum) &&
    l.getLast?.all (·.isAlphanum)

def isHostname (s : Text) : Bool :=
  (s.splitOn '.').all isLabel || ((s.splitOn '.').length = 4 &&
    (s.splitOn '.').all fun l => 1 ≤ l.length && l.length ≤ 3 && l.all (·.isDigit))

def assertHost (label value : Text) : Except Problem Text :=
  (assertSingleLine label value).bind fun s =>
    if trim s = [] then .error (.emptyHost label)
    else if isHostname (trim s) then .ok (trim s)
    else .error (.invalidHost label (trim s))

def number (t : Text) : ℕ := t.foldl (fun n c => 10 * n + (c.toNat - 48)) 0

def decimal (n : ℕ) : Text := Nat.toDigits 10 n

/-- The port, as a number. -/
def parsePort (label value : Text) (fallback : ℕ) : Except Problem ℕ :=
  if trim value = [] then .ok fallback
  else if !(trim value).all (·.isDigit) then .error (.portNotNumber label (trim value))
  else if number (trim value) < 1 || 65535 < number (trim value) then
    .error (.portOutOfRange label (number (trim value)))
  else .ok (number (trim value))

/-- The domain without its first label, if it has more than two. -/
def registrable (domain : Text) : Text :=
  if 2 < (domain.splitOn '.').length then ['.'].intercalate ((domain.splitOn '.').drop 1)
  else domain

def computeModeConfig : Mode → Opts → Except Problem Cfg
  | .lan, opts =>
    (assertHost "LAN address".toList (orDefault opts.host "192.168.1.50".toList)).bind fun host =>
      (parsePort "HTTPS port".toList opts.httpsPort 8443).map fun httpsPort =>
        { mode := .lan
          host
          httpPort := decimal (httpsPort + 1)
          httpsPort := decimal httpsPort
          httpsContainerPort := decimal httpsPort
          origin := "https://".toList ++ host ++ ':' :: decimal httpsPort
          nodeEnv := "production".toList
          cookieSecure := ['1']
          s3PublicDefault := [] }
  | .domain, opts =>
    (assertHost "domain".toList (orDefault opts.domain "chat.example.com".toList)).bind
      fun domain =>
        (assertSingleLine "ACME email".toList
          (orDefault opts.acmeEmail ("admin@".toList ++ registrable domain))).map fun _ =>
          { mode := .domain
            host := domain
            httpPort := "80".toList
            httpsPort := "443".toList
            httpsContainerPort := "443".toList
            origin := "https://".toList ++ domain
            nodeEnv := "production".toList
            cookieSecure := ['1']
            s3PublicDefault := [] }
  | .local, opts =>
    (parsePort "port".toList opts.httpPort 8443).map fun httpPort =>
      { mode := .local
        host := "localhost".toList
        httpPort := decimal httpPort
        httpsPort := decimal (httpPort + 1)
        httpsContainerPort := "443".toList
        origin := "http://localhost:".toList ++ decimal httpPort
        nodeEnv := "development".toList
        cookieSecure := ['0']
        s3PublicDefault := "http://localhost:9000".toList }

/-! ## What a run draws -/

/-- A text of random letters, digits, `-` and `_`. -/
structure Token where
  text : Text
  ne_nil : text ≠ []
  plain : ∀ c ∈ text, (c.isAlphanum || c = '-' || c = '_') = true

structure Draws where
  dbPassword : Token
  jwtSecret : Token
  totpWrapKey : Token
  minioPassword : Token
  livekitKey : Token
  livekitSecret : Token
  vapidPublicKey : Token
  vapidPrivateKey : Token

structure Flags where
  MEDIA : Bool
  CALLS : Bool
  STICKERS : Bool
  GIF : Bool
  PUSH : Bool
  twoFactor : Bool
  GUESTS : Bool
  OPEN_REGISTRATION : Bool

def bit (on : Bool) : Text := if on then ['1'] else ['0']

def Flags.wantsObjects (flags : Flags) : Bool := flags.MEDIA || flags.STICKERS

/-! ## What depends on the run before -/

def DEFAULT_SUBJECT : Text := "mailto:admin@localhost".toList

def normalizeSubject (s : Text) : Except Problem Text :=
  (assertSingleLine "push contact".toList s).map fun s =>
    let t := orDefault (trim s) DEFAULT_SUBJECT
    if "mailto:".toList.isPrefixOf t || "https:".toList.isPrefixOf t then t
    else "mailto:".toList ++ t

structure Vapid where
  publicKey : Text
  privateKey : Text
  subject : Text

/-- The file has a pair of keys. -/
def havePair (existing : Existing) : Bool :=
  value existing .OT_VAPID_PUBLIC_KEY ≠ [] && value existing .OT_VAPID_PRIVATE_KEY ≠ []

def resolveVapid (existing : Existing) (subject : Text) (d : Draws) : Except Problem Vapid :=
  if havePair existing then
    (normalizeSubject (orDefault subject (value existing .OT_VAPID_SUBJECT))).map fun subject =>
      ⟨value existing .OT_VAPID_PUBLIC_KEY, value existing .OT_VAPID_PRIVATE_KEY, subject⟩
  else
    (normalizeSubject subject).map fun subject =>
      ⟨d.vapidPublicKey.text, d.vapidPrivateKey.text, subject⟩

inductive Driver
  | fs | s3
  deriving DecidableEq

def Driver.text : Driver → Text
  | fs => "fs".toList
  | s3 => "s3".toList

/-- The driver that the text names. -/
def parseDriver (t : Text) : Option Driver :=
  if (trim t).map Char.toLower = Driver.fs.text then some .fs
  else if (trim t).map Char.toLower = Driver.s3.text then some .s3
  else none

def resolveMediaDriver (mediaDriver : Text) (existing : Existing) : Driver :=
  (parseDriver mediaDriver).getD
    ((parseDriver (value existing .OT_MEDIA_DRIVER)).getD
      (if existing.size = 0 then .fs else .s3))

structure Livekit where
  bundled : Bool
  url : Text
  key : Text
  secret : Text

def Livekit.off : Livekit := ⟨false, [], [], []⟩

/-- The origin without its scheme. -/
def withoutScheme (origin : Text) : Text :=
  if "https://".toList.isPrefixOf origin then origin.drop 8
  else if "http://".toList.isPrefixOf origin then origin.drop 7
  else origin

def bundledUrl (cfg : Cfg) : Text :=
  (if "https://".toList.isPrefixOf cfg.origin then "wss://".toList else "ws://".toList) ++
    withoutScheme cfg.origin ++ "/livekit".toList

/-- The URL that was supplied is that of another server. -/
def isExternal (cfg : Cfg) (livekit : Livekit) : Bool :=
  trim livekit.url ≠ [] && trim livekit.url ≠ bundledUrl cfg

def resolveLivekit (cfg : Cfg) (flags : Flags) (livekit : Livekit) (existing : Existing)
    (d : Draws) : Except Problem Livekit :=
  if !flags.CALLS then .ok .off
  else if isExternal cfg livekit then
    (assertSingleLine "LiveKit URL".toList (trim livekit.url)).bind fun url =>
      (assertSingleLine "LiveKit API key".toList (trim livekit.key)).bind fun key =>
        (assertSingleLine "LiveKit API secret".toList (trim livekit.secret)).map fun secret =>
          ⟨false, url, key, secret⟩
  else if !livekit.bundled then .ok .off
  else .ok
    { bundled := true
      url := bundledUrl cfg
      key := orDefault livekit.key (orDefault (value existing .OT_LIVEKIT_API_KEY)
        ("APIlite".toList ++ d.livekitKey.text))
      secret := orDefault livekit.secret (orDefault (value existing .OT_LIVEKIT_API_SECRET)
        d.livekitSecret.text) }

/-! ## The object store -/

/-- The parts of a URL. -/
structure Url where
  protocol : Text
  hostname : Text
  port : Text

section
variable (parseUrl : Text → Option Url)

def LOOPBACK : Text := "127.0.0.1:".toList

def MINIO_PORT : Text := "9000".toList

def minioBind (cfg : Cfg) (s3PublicUrl : Text) : Text :=
  if cfg.mode = .local then LOOPBACK
  else match parseUrl s3PublicUrl with
    | none => LOOPBACK
    | some u =>
      if u.hostname = cfg.host && orDefault u.port
          (if u.protocol = "https:".toList then "443".toList else "80".toList) = MINIO_PORT then []
      else LOOPBACK

/-- No other device would reach the object store. -/
def s3UrlProblem (cfg : Cfg) (flags : Flags) (s3PublicUrl : Text) (mediaDriver : Driver) : Bool :=
  mediaDriver ≠ .fs && flags.wantsObjects && trim s3PublicUrl ≠ [] && cfg.mode ≠ .local &&
    (parseUrl (trim s3PublicUrl)).all fun u =>
      u.hostname ∈ ["localhost", "127.0.0.1", "::1", "[::1]"].map String.toList

/-! ## The variables of a run -/

abbrev Env := InsMap Var Text

/-- The variables that every run writes. -/
def baseEntries (cfg : Cfg) (flags : Flags) (s3PublicUrl : Text) (lk : Livekit) (admin : Text)
    (driver : Driver) (d : Draws) : List (Var × Text) :=
  [(.OT_MODE, cfg.mode.text),
    (.OT_ORIGIN, cfg.origin),
    (.OT_BIND, if cfg.mode = .local then LOOPBACK else []),
    (.OT_HTTP_PORT, cfg.httpPort),
    (.OT_HTTPS_PORT, cfg.httpsPort),
    (.OT_HTTPS_CONTAINER_PORT, cfg.httpsContainerPort),
    (.OT_NODE_ENV, cfg.nodeEnv),
    (.OT_COOKIE_SECURE, cfg.cookieSecure),
    (.OT_DB_PASSWORD, d.dbPassword.text),
    (.OT_JWT_SECRET, d.jwtSecret.text),
    (.OT_TOTP_WRAP_KEY, d.totpWrapKey.text),
    (.OT_MEDIA_DRIVER, driver.text),
    (.OT_MEDIA_PUBLIC_URL, if driver = .fs then cfg.origin ++ "/api".toList else []),
    (.OT_MINIO_USER, "minio".toList),
    (.OT_MINIO_PASSWORD, d.minioPassword.text),
    (.OT_MINIO_PORT, MINIO_PORT),
    (.OT_MINIO_BIND, if driver = .s3 then
      minioBind parseUrl cfg (orDefault s3PublicUrl cfg.s3PublicDefault) else LOOPBACK),
    (.OT_S3_PUBLIC_URL, if driver = .s3 then orDefault s3PublicUrl cfg.s3PublicDefault else []),
    (.OT_ENABLE_MEDIA, bit flags.MEDIA),
    (.OT_ENABLE_CALLS, bit flags.CALLS),
    (.OT_ENABLE_STICKERS, bit flags.STICKERS),
    (.OT_ENABLE_GIF, bit flags.GIF),
    (.OT_ENABLE_PUSH, bit flags.PUSH),
    (.OT_ENABLE_2FA, bit flags.twoFactor),
    (.OT_ENABLE_GUESTS, bit flags.GUESTS),
    (.OT_ENABLE_OPEN_REGISTRATION, bit flags.OPEN_REGISTRATION),
    (.OT_ADMIN_USERNAME, trim admin),
    (.OT_CALL_MEDIA_MODE, if lk.url = [] then "origin_safe".toList else "self_hosted".toList),
    (.OT_LIVEKIT_URL, lk.url),
    (.OT_LIVEKIT_API_KEY, lk.key),
    (.OT_LIVEKIT_API_SECRET, lk.secret),
    (.OT_LIVEKIT_ADMIN_URL, if lk.bundled then "http://livekit:7880".toList else []),
    (.OT_LIVEKIT_UDP_PORT, if lk.bundled then "7882".toList else []),
    (.OT_LIVEKIT_BIND, if lk.bundled && cfg.mode ≠ .local then [] else LOOPBACK)]

theorem baseEntries_keys (cfg : Cfg) (flags : Flags) (s3PublicUrl : Text) (lk : Livekit)
    (admin : Text) (driver : Driver) (d : Draws) :
    (baseEntries parseUrl cfg flags s3PublicUrl lk admin driver d).map Prod.fst =
      Var.all.take 34 := rfl

def baseEnv (cfg : Cfg) (flags : Flags) (s3PublicUrl : Text) (lk : Livekit) (admin : Text)
    (driver : Driver) (d : Draws) : Env where
  entries := baseEntries parseUrl cfg flags s3PublicUrl lk admin driver d
  nodup := by
    rw [baseEntries_keys]
    decide

def withVapid (env : Env) (v : Vapid) : Env :=
  ((env.set .OT_VAPID_PUBLIC_KEY v.publicKey).set .OT_VAPID_PRIVATE_KEY v.privateKey).set
    .OT_VAPID_SUBJECT (orDefault v.subject DEFAULT_SUBJECT)

def PERSISTENT_SECRETS : List Var :=
  [.OT_DB_PASSWORD, .OT_JWT_SECRET, .OT_TOTP_WRAP_KEY, .OT_MINIO_PASSWORD, .OT_VAPID_PUBLIC_KEY,
    .OT_VAPID_PRIVATE_KEY]

/-- A secret of the run before is kept. -/
def keepSecret (existing : Existing) (vapid : Option Vapid) (env : Env) (key : Var) : Env :=
  if value existing key = [] then env
  else if key.isVapid && vapid.isSome then env
  else if env.has key then env.set key (value existing key)
  else env

def buildEnv (cfg : Cfg) (flags : Flags) (s3PublicUrl : Text) (livekit : Livekit)
    (vapid : Option Vapid) (existing : Existing) (adminUsername mediaDriver : Text) (d : Draws) :
    Except Problem Env :=
  (resolveLivekit cfg flags livekit existing d).bind fun lk =>
    (assertSingleLine "admin handle".toList adminUsername).map fun admin =>
      let driver := resolveMediaDriver mediaDriver existing
      let env := baseEnv parseUrl cfg flags s3PublicUrl lk admin driver d
      let env := if flags.PUSH then
        withVapid env (vapid.getD ⟨d.vapidPublicKey.text, d.vapidPrivateKey.text, DEFAULT_SUBJECT⟩)
        else env
      let env := PERSISTENT_SECRETS.foldl (keepSecret existing vapid) env
      if flags.PUSH && value existing .OT_VAPID_SUBJECT ≠ [] && vapid.isNone then
        env.set .OT_VAPID_SUBJECT (value existing .OT_VAPID_SUBJECT)
      else env

end

end OneToThree.Installer
