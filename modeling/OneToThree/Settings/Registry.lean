import Mathlib.Data.Int.Notation
import Mathlib.Data.Rat.Init
import OneToThree.Lib.InsMap
import OneToThree.Folders.ChatFolders

/-!
# The settings of an instance

The knobs that the admin panel can change. What is in effect is the row of the knob in the table of
overrides, else its environment variable, else its default.

* `coerceValue` makes a value of a request or of a row one of the knob's type; what it returns it
  leaves as it is (`coerceValue_raw`).
* `loadOverrides` reads the table: at a knob it finds what its row is coerced to
  (`get?_loadOverrides`), so that setting or resetting a knob shows there and nowhere else
  (`effective_write`, `effective_write_ne`).
-/

namespace OneToThree.Settings

/-- A knob. The variable `env` is what it falls back to. -/
inductive SettingDef
  | boolean (key env : String) (default : Bool)
  | integer (key env : String) (default min max : ℤ)
  deriving DecidableEq

inductive SettingValue
  | boolean (b : Bool)
  | number (n : ℤ)
  deriving DecidableEq

/-- A value of a request or of the table. -/
inductive Raw
  | boolean (b : Bool)
  | number (q : ℚ)
  /-- `NaN` or an infinite number. -/
  | notFinite
  /-- Of another type. -/
  | other
  deriving DecidableEq

def SettingDef.key : SettingDef → String
  | .boolean key _ _ => key
  | .integer key _ _ _ _ => key

def SettingDef.env : SettingDef → String
  | .boolean _ env _ => env
  | .integer _ env _ _ _ => env

def SettingDef.default : SettingDef → SettingValue
  | .boolean _ _ default => .boolean default
  | .integer _ _ default _ _ => .number default

/-- The value as the table stores it. -/
def SettingValue.raw : SettingValue → Raw
  | .boolean b => .boolean b
  | .number n => .number (Rat.ofInt n)

def SETTINGS_REGISTRY : List SettingDef :=
  [.boolean "open_registration" "FEATURE_OPEN_REGISTRATION" true,
    .integer "guest_link_ttl_hours" "GUEST_LINK_TTL_HOURS" 24 1 8760,
    .integer "guest_meeting_seats" "GUEST_MEETING_SEATS" 10 1 50,
    .integer "guest_chat_ttl_hours" "GUEST_CHAT_TTL_HOURS" 12 1 8760,
    .integer "guest_max_links_per_user" "GUEST_MAX_LINKS_PER_USER" 20 1 10000,
    .integer "guest_max_active" "GUEST_MAX_ACTIVE" 50 1 100000]

def getSettingDef (key : String) : Option SettingDef :=
  SETTINGS_REGISTRY.find? fun d => d.key = key

theorem key_of_getSettingDef {key : String} {d : SettingDef} (h : getSettingDef key = some d) :
    d.key = key := by
  simpa using List.find?_some h

/-! ## Values of a knob's type -/

def mathMax (m n : ℤ) : ℤ := if m < n then n else m

def mathMin (m n : ℤ) : ℤ := if n < m then n else m

def clampInteger (n min max : ℤ) : ℤ := mathMin max (mathMax min n)

theorem clampInteger_clampInteger (n min max : ℤ) :
    clampInteger (clampInteger n min max) min max = clampInteger n min max := by
  simp only [clampInteger, mathMin, mathMax]
  split_ifs <;> omega

/-- `Math.trunc`. -/
def trunc (q : ℚ) : ℤ := q.num.tdiv q.den

theorem trunc_ofInt (n : ℤ) : trunc (Rat.ofInt n) = n := by
  simp [trunc, Rat.ofInt]

def coerceValue (d : SettingDef) (raw : Raw) : Option SettingValue :=
  match d, raw with
  | .boolean .., .boolean b => some (.boolean b)
  | .integer _ _ _ min max, .number q => some (.number (clampInteger (trunc q) min max))
  | _, _ => none

/-- A value that was coerced passes its own check. -/
theorem coerceValue_raw {d : SettingDef} {raw : Raw} {v : SettingValue}
    (h : coerceValue d raw = some v) : coerceValue d v.raw = some v := by
  cases d <;> cases raw <;> simp only [coerceValue, reduceCtorEq, Option.some.injEq] at h
  · rw [← h]
    rfl
  · rw [← h]
    simp only [SettingValue.raw, coerceValue, trunc_ofInt, clampInteger_clampInteger]

/-! ## The environment -/

/-- The variables of the process, and `Number` of a text, where that is finite. -/
structure Env where
  get : String → Option String
  number : String → Option ℚ

def isEnvFalse (v : String) : Bool :=
  (Folders.trim v).toLower ∈ ["0", "false", "no", "off"]

def isEnvTrue (v : String) : Bool :=
  (Folders.trim v).toLower ∈ ["1", "true", "yes", "on"]

/-- What is neither true nor false is ignored. -/
def parseEnvBoolean (raw : Option String) : Option Bool :=
  raw.bind fun raw =>
    if Folders.trim raw = "" then none
    else if isEnvFalse raw then some false
    else if isEnvTrue raw then some true
    else none

variable (env : Env)

def parseEnvInteger (raw : Option String) (min max : ℤ) : Option ℤ :=
  raw.bind fun raw => (env.number (Folders.trim raw)).map fun q => clampInteger (trunc q) min max

/-- What is in effect without an override. -/
def envValueOf (d : SettingDef) : SettingValue :=
  match d with
  | .boolean _ name default => .boolean ((parseEnvBoolean (env.get name)).getD default)
  | .integer _ name default min max =>
    .number ((parseEnvInteger env (env.get name) min max).getD default)

/-- The defaults of the registry pass their own check. -/
theorem coerceValue_default {d : SettingDef} (h : d ∈ SETTINGS_REGISTRY) :
    coerceValue d d.default.raw = some d.default := by
  simp only [SETTINGS_REGISTRY, List.mem_cons, List.not_mem_nil, or_false] at h
  rcases h with rfl | rfl | rfl | rfl | rfl | rfl <;> rfl

/-- So does what the environment says. -/
theorem coerceValue_envValueOf {d : SettingDef} (h : d ∈ SETTINGS_REGISTRY) :
    coerceValue d (envValueOf env d).raw = some (envValueOf env d) := by
  have hdefault := coerceValue_default h
  cases d with
  | boolean key name default => rfl
  | integer key name default min max =>
    rw [envValueOf]
    cases hraw : parseEnvInteger env (env.get name) min max with
    | none => exact hdefault
    | some n =>
      obtain ⟨raw, -, hn⟩ := Option.bind_eq_some_iff.1 hraw
      obtain ⟨q, -, rfl⟩ := Option.map_eq_some_iff.1 hn
      simp only [Option.getD_some, SettingValue.raw, coerceValue, trunc_ofInt,
        clampInteger_clampInteger]

/-! ## The table -/

/-- The table `instance_settings`. -/
abbrev Rows := InsMap String Raw

abbrev Overrides := InsMap String SettingValue

/-- One row of the table: that of a knob removed from the registry is inert. -/
def override (m : Overrides) (row : String × Raw) : Overrides :=
  match getSettingDef row.1 with
  | none => m
  | some d =>
    match coerceValue d row.2 with
    | none => m
    | some v => m.set d.key v

def loadOverrides (rows : Rows) : Overrides := rows.entries.foldl override ∅

theorem get?_override_ne (m : Overrides) (row : String × Raw) (key : String) (h : row.1 ≠ key) :
    (override m row).get? key = m.get? key := by
  rw [override]
  split
  next => rfl
  next d hd =>
    split
    next => rfl
    next v _ => exact InsMap.get?_set_ne m v (key_of_getSettingDef hd ▸ h.symm)

theorem get?_override (m : Overrides) (row : String × Raw) :
    (override m row).get? row.1 =
      (((getSettingDef row.1).bind fun d => coerceValue d row.2).or (m.get? row.1)) := by
  rw [override]
  split
  next hd => simp [hd]
  next d hd =>
    split
    next hv => simp [hd, hv]
    next v hv => rw [key_of_getSettingDef hd, InsMap.get?_set_self]; simp [hd, hv]

/-- What is found at a knob is what its row is coerced to. -/
theorem get?_loadOverrides {rows : Rows} {key : String} {d : SettingDef}
    (hd : getSettingDef key = some d) :
    (loadOverrides rows).get? key = (rows.get? key).bind (coerceValue d) := by
  cases hrow : rows.get? key with
  | none =>
    have hkey : key ∉ rows.entries.map Prod.fst := InsMap.find_eq_none.1 hrow
    exact InsMap.get?_foldl_ne Prod.fst get?_override_ne hkey ∅
  | some raw =>
    have h := InsMap.get?_foldl Prod.fst
      (fun row v => ((getSettingDef row.1).bind fun d => coerceValue d row.2).or v)
      get?_override_ne get?_override rows.nodup (InsMap.get?_eq_some_iff.1 hrow) ∅
    rw [loadOverrides, h]
    simp [hd]

/-- What is in effect of a knob, with these overrides. -/
def resolve (m : Overrides) (d : SettingDef) : SettingValue :=
  (m.get? d.key).getD (envValueOf env d)

/-- What `setSetting` has the database do, and the value it reports. -/
structure Write where
  key : String
  /-- The value that the row is set to. Nothing deletes the row. -/
  value : Option SettingValue
  reported : SettingValue

/-- The call up to its statement. It throws for what is no knob, or no value of its type. -/
def setSetting (key : String) (value : Option Raw) : Option Write :=
  (getSettingDef key).bind fun d =>
    match value with
    | none => some ⟨key, none, envValueOf env d⟩
    | some raw => (coerceValue d raw).map fun v => ⟨key, some v, v⟩

def Write.execute (w : Write) (rows : Rows) : Rows :=
  match w.value with
  | none => rows.delete w.key
  | some v => rows.set w.key v.raw

variable {env}

theorem key_of_setSetting {key : String} {value : Option Raw} {w : Write}
    (hw : setSetting env key value = some w) : w.key = key := by
  obtain ⟨d, -, hw⟩ := Option.bind_eq_some_iff.1 hw
  cases value with
  | none => rw [← Option.some.inj hw]
  | some raw =>
    obtain ⟨v, -, rfl⟩ := Option.map_eq_some_iff.1 hw
    rfl

/-- After the statement, what it reports is in effect. -/
theorem effective_write {key : String} {value : Option Raw} {w : Write} {d : SettingDef}
    (hw : setSetting env key value = some w) (hd : getSettingDef key = some d) (rows : Rows) :
    resolve env (loadOverrides (w.execute rows)) d = w.reported := by
  simp only [setSetting, hd, Option.bind_some] at hw
  have hkey := key_of_getSettingDef hd
  cases value with
  | none =>
    obtain rfl := Option.some.inj hw
    rw [resolve, hkey, get?_loadOverrides hd, Write.execute, InsMap.get?_delete_self]
    rfl
  | some raw =>
    obtain ⟨v, hv, rfl⟩ := Option.map_eq_some_iff.1 hw
    rw [resolve, hkey, get?_loadOverrides hd, Write.execute, InsMap.get?_set_self,
      Option.bind_some, coerceValue_raw hv]
    rfl

/-- The statement of another knob leaves it as it is. -/
theorem effective_write_ne {w : Write} {key : String} {d : SettingDef} (h : w.key ≠ key)
    (hd : getSettingDef key = some d) (rows : Rows) :
    resolve env (loadOverrides (w.execute rows)) d = resolve env (loadOverrides rows) d := by
  have hrow : (w.execute rows).get? key = rows.get? key := by
    rw [Write.execute]
    split
    · exact InsMap.get?_delete_ne rows h.symm
    · exact InsMap.get?_set_ne rows _ h.symm
  rw [resolve, resolve, key_of_getSettingDef hd, get?_loadOverrides hd, get?_loadOverrides hd, hrow]

end OneToThree.Settings
