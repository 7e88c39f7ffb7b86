import OneToThree.Auth.Handles
import OneToThree.Lib.CodePoints

/-!
# Display names

A display name is free text, shown without the handle beside it. `PATCH /users/me` sanitizes it and
compares it with the handles, and writes it in another statement; a registration looks at the
handles only.

* `sanitize_fixed`: what is sanitized is left as it is by sanitizing it again, unless halves of
  surrogate pairs met when what stood between them was taken out.
* `honest_of_fair`: no display name reads as another's handle, nor as a reserved one, along the runs
  in which no handle is taken that is displayed, and no name is brought that reads as a reserved one
  once its blanks are taken out, or that has such halves.
-/

namespace OneToThree.DisplayNames

open JsText
open Handles (toLowerCase parseNickname RESERVED_NICKNAMES)

/-! ## Sanitizing -/

def DISPLAY_NAME_MAX_LENGTH : ℕ := 32

/-- The code points of the categories `Cc`, `Cf`, `Zl` and `Zp`, from the first to the last of each
    range. -/
def invisibleRanges : List (ℕ × ℕ) :=
  [(0, 0x1F), (0x7F, 0x9F), (0xAD, 0xAD), (0x600, 0x605), (0x61C, 0x61C), (0x6DD, 0x6DD),
    (0x70F, 0x70F), (0x890, 0x891), (0x8E2, 0x8E2), (0x180E, 0x180E), (0x200B, 0x200F),
    (0x2028, 0x202E), (0x2060, 0x2064), (0x2066, 0x206F), (0xFEFF, 0xFEFF), (0xFFF9, 0xFFFB),
    (0x110BD, 0x110BD), (0x110CD, 0x110CD), (0x13430, 0x1343F), (0x1BCA0, 0x1BCA3),
    (0x1D173, 0x1D17A), (0xE0001, 0xE0001), (0xE0020, 0xE007F)]

/-- Whether `INVISIBLE_RE` matches a code point. -/
def isInvisible (p : JsText) : Bool :=
  invisibleRanges.any fun r => r.1 ≤ codePoint p && codePoint p ≤ r.2

/-- `raw.replace(INVISIBLE_RE, '')`. -/
def stripInvisible (raw : JsText) : JsText :=
  ((points raw).filter fun p => !isInvisible p).flatten

def sanitizeDisplayName (raw : JsText) : Option JsText :=
  let cleaned := trim (collapse false (stripInvisible raw))
  if cleaned = [] then none
  else if (points cleaned).length ≤ DISPLAY_NAME_MAX_LENGTH then some cleaned
  else some (trim ((points cleaned).take DISPLAY_NAME_MAX_LENGTH).flatten)

/-- What the database stores of a text: a half that stands alone becomes `U+FFFD`. -/
def toWellFormed (t : JsText) : JsText :=
  ((points t).map fun p => if isScalar p then p else [0xFFFD]).flatten

/-- A code point that is shown. -/
def IsVisible (p : JsText) : Prop := isScalar p = true ∧ isInvisible p = false

theorem stripInvisible_flatten {ps : List JsText} (h : ∀ p ∈ ps, IsVisible p) :
    stripInvisible ps.flatten = ps.flatten := by
  rw [stripInvisible, points_flatten fun p hp => (h p hp).1,
    List.filter_eq_self.2 fun p hp => by rw [(h p hp).2]; rfl]

theorem toWellFormed_flatten {ps : List JsText} (h : ∀ p ∈ ps, isScalar p = true) :
    toWellFormed ps.flatten = ps.flatten := by
  have hmap : (ps.map fun p => if isScalar p then p else [0xFFFD]) = ps.map id :=
    List.map_congr_left fun p hp => if_pos (h p hp)
  rw [toWellFormed, points_flatten h, hmap, List.map_id]

/-- A text that may be displayed. -/
structure IsLabel (name : JsText) : Prop where
  visible : ∃ ps : List JsText, name = ps.flatten ∧ (∀ p ∈ ps, IsVisible p) ∧
    ps.length ≤ DISPLAY_NAME_MAX_LENGTH
  collapsed : Collapsed name
  trimmed : trim name = name
  ne_nil : name ≠ []

theorem IsLabel.sanitize_eq {name : JsText} (h : IsLabel name) :
    sanitizeDisplayName name = some name := by
  obtain ⟨ps, rfl, hps, hlen⟩ := h.visible
  have hcleaned : trim (collapse false (stripInvisible ps.flatten)) = ps.flatten := by
    rw [stripInvisible_flatten hps, h.collapsed.collapse_eq fun hf => absurd hf Bool.false_ne_true,
      h.trimmed]
  simp only [sanitizeDisplayName, hcleaned]
  rw [if_neg h.ne_nil, points_flatten fun p hp => (hps p hp).1, if_pos hlen]

theorem IsLabel.toWellFormed_eq {name : JsText} (h : IsLabel name) : toWellFormed name = name := by
  obtain ⟨ps, rfl, hps, -⟩ := h.visible
  exact toWellFormed_flatten fun p hp => (hps p hp).1

/-- What is sanitized before it is cut. -/
theorem cleaned_visible {raw : JsText} (h : isWellFormed raw = true) :
    ∃ ps : List JsText, trim (collapse false (stripInvisible raw)) = ps.flatten ∧
      ∀ p ∈ ps, IsVisible p := by
  have hstrip : ∀ p ∈ (points raw).filter fun p => !isInvisible p, IsVisible p := by
    intro p hp
    obtain ⟨hp, hvisible⟩ := List.mem_filter.1 hp
    rw [Bool.not_eq_true'] at hvisible
    exact ⟨List.all_eq_true.1 h p hp, hvisible⟩
  obtain ⟨qs, hqs, hcollapse⟩ := collapse_flatten (fun p hp => (hstrip p hp).1) false
  have hvisible : ∀ q ∈ qs, IsVisible q := by
    intro q hq
    rcases hqs q hq with rfl | hq
    · exact ⟨rfl, rfl⟩
    · exact hstrip q hq
  obtain ⟨rs, hrs, htrim⟩ := trim_flatten fun q hq => (hvisible q hq).1
  exact ⟨rs, by rw [stripInvisible, hcollapse, htrim], fun p hp => hvisible p (hrs.subset hp)⟩

theorem collapsed_trim {t : JsText} (h : Collapsed t) : Collapsed (trim t) := by
  obtain ⟨a, b, ht⟩ := trim_append t
  exact Collapsed.of_append (ht ▸ h)

theorem isLabel_sanitize {raw name : JsText} (h : isWellFormed raw = true)
    (hname : sanitizeDisplayName raw = some name) : IsLabel name := by
  obtain ⟨ps, hps, hvisible⟩ := cleaned_visible h
  have hcollapsed : Collapsed ps.flatten := hps ▸ collapsed_trim (collapsed_collapse false _).1
  have hpoints : points ps.flatten = ps := points_flatten fun p hp => (hvisible p hp).1
  simp only [sanitizeDisplayName] at hname
  split_ifs at hname with hnil hlen
  · obtain rfl := Option.some.inj hname
    rw [hps, hpoints] at hlen
    exact ⟨⟨ps, hps, hvisible, hlen⟩, hps ▸ hcollapsed, trim_trim _, hnil⟩
  · obtain rfl := Option.some.inj hname
    have hhead := not_isSpace_head_trim (collapse false (stripInvisible raw))
    rw [hps] at hnil hhead ⊢
    rw [hpoints]
    have htake : ∀ p ∈ ps.take DISPLAY_NAME_MAX_LENGTH, IsVisible p := fun p hp =>
      hvisible p (List.mem_of_mem_take hp)
    obtain ⟨qs, hqs, htrim⟩ := trim_flatten fun p hp => (htake p hp).1
    refine ⟨⟨qs, htrim, fun p hp => htake p (hqs.subset hp), ?_⟩, ?_, trim_trim _, ?_⟩
    · exact Nat.le_trans hqs.length_le (List.length_take_le _ _)
    · refine collapsed_trim (Collapsed.of_append (a := [])
        (b := (ps.drop DISPLAY_NAME_MAX_LENGTH).flatten) ?_)
      rwa [List.nil_append, ← List.flatten_append, List.take_append_drop]
    · -- The cut keeps the first unit, which is no white space.
      cases ps with
      | nil => exact absurd rfl hnil
      | cons p ps =>
        obtain ⟨u, t, hp⟩ : ∃ u t, p = u :: t := by
          rcases isScalar_cases (hvisible p List.mem_cons_self).1 with ⟨u, rfl, -⟩ | ⟨h, l, rfl, -⟩
          · exact ⟨u, [], rfl⟩
          · exact ⟨h, [l], rfl⟩
        subst hp
        exact List.ne_nil_of_mem (mem_trim List.mem_cons_self (hhead u rfl))

/-- Sanitizing once is enough for a text without single halves. -/
theorem sanitize_fixed {raw name : JsText} (h : isWellFormed raw = true)
    (hname : sanitizeDisplayName raw = some name) : sanitizeDisplayName name = some name :=
  (isLabel_sanitize h hname).sanitize_eq

/-! ## Requests -/

structure User where
  id : ℕ
  username : JsText
  displayName : Option JsText
  deriving DecidableEq

/-- A request to `PATCH /users/me` that is about to write. -/
structure Update where
  userId : ℕ
  displayName : Option JsText

structure State where
  users : List User
  /-- Registrations that found no account and have not inserted one, by their handle. -/
  registrations : Tasks JsText
  updates : Tasks Update

inductive Event
  /-- A request to `POST /verify` that brings a key. -/
  | verify (raw : JsText)
  /-- A registration inserts its account, unless the handle is kept for guests. -/
  | insert (i : ℕ) (userId : ℕ)
  /-- A request to `PATCH /users/me` sanitizes the name, and looks for collisions. -/
  | patch (userId : ℕ) (raw : JsText)
  | update (i : ℕ)
  | abandonRegistration (i : ℕ)
  | abandonUpdate (i : ℕ)

section
variable (lower : JsText → JsText)

/-- The name reads as the handle, with or without its blanks. `lower`: `toLowerCase` of any text. -/
def readsAs (name handle : JsText) : Bool :=
  lower name = handle || removeSpaces (lower name) = handle

def displayNameCollides (users : List User) (name : JsText) (selfUserId : ℕ) : Bool :=
  lower name ∈ RESERVED_NICKNAMES ||
    users.any fun u => u.id ≠ selfUserId && (toLowerCase u.username = lower name ||
      toLowerCase u.username = removeSpaces (lower name))

/-- The primary key and the index over the lower case of the handles. -/
def insertUser (users : List User) (u : User) : List User :=
  if users.any fun v => v.id = u.id || toLowerCase v.username = toLowerCase u.username then users
  else users ++ [u]

def setDisplayName (users : List User) (upd : Update) : List User :=
  users.map fun u =>
    if u.id = upd.userId then { u with displayName := upd.displayName.map toWellFormed } else u

namespace State
variable (s : State)

def start : State := ⟨[], .empty, .empty⟩

def verify (raw : JsText) : State :=
  match parseNickname raw with
  | .error _ => s
  | .ok nick =>
    if s.users.any fun u => toLowerCase u.username = nick.value then s
    else { s with registrations := s.registrations.spawn nick.value }

def insert (i userId : ℕ) (username : JsText) : State :=
  { s with
    users :=
      if (ascii "guest_").isPrefixOf username then s.users
      else insertUser s.users ⟨userId, username, none⟩
    registrations := s.registrations.finish i }

def patch (userId : ℕ) (raw : JsText) : State :=
  if !(s.users.any fun u => u.id = userId) ∨ 64 < raw.length then s
  else
    match sanitizeDisplayName raw with
    | none => { s with updates := s.updates.spawn ⟨userId, none⟩ }
    | some cleaned =>
      if displayNameCollides lower s.users cleaned userId then s
      else { s with updates := s.updates.spawn ⟨userId, some cleaned⟩ }

def update (i : ℕ) (upd : Update) : State :=
  { s with users := setDisplayName s.users upd, updates := s.updates.finish i }

end State

def step (s : State) : Event → Option State
  | .verify raw => some (s.verify raw)
  | .insert i userId => (s.registrations.get? i).map (s.insert i userId)
  | .patch userId raw => some (s.patch lower userId raw)
  | .update i => (s.updates.get? i).map (s.update i)
  | .abandonRegistration i => (s.registrations.get? i).map fun _ =>
    { s with registrations := s.registrations.finish i }
  | .abandonUpdate i => (s.updates.get? i).map fun _ => { s with updates := s.updates.finish i }

def machine : Machine State Event where
  init s := s = .start
  step := step lower

/-- No display name reads as the handle of another, nor as a reserved one, and all are sanitized. -/
def Honest (users : List User) : Prop :=
  ∀ u ∈ users, ∀ name ∈ u.displayName,
    (∀ v ∈ users, v.id ≠ u.id → readsAs lower name v.username = false) ∧
      (∀ r ∈ RESERVED_NICKNAMES, readsAs lower name r = false) ∧
      sanitizeDisplayName name = some name

instance (users : List User) : Decidable (Honest lower users) :=
  inferInstanceAs (Decidable (∀ u ∈ users, ∀ name ∈ u.displayName, _ ∧ _ ∧ _))

/-- A handle is inserted that nobody displays; a name is written that is not the handle of another
    by then, and that was brought in whole code points and is no reserved name with blanks. -/
def fair (s : State) : Event → Bool
  | .insert i _ => (s.registrations.get? i).all fun username =>
    s.users.all fun u => u.displayName.all fun name => !readsAs lower name username
  | .patch _ raw => isWellFormed raw && (sanitizeDisplayName raw).all fun name =>
    removeSpaces (lower name) ∉ RESERVED_NICKNAMES
  | .update i => (s.updates.get? i).all fun upd => upd.displayName.all fun name =>
    s.users.all fun v => v.id = upd.userId || !readsAs lower name v.username
  | .verify _ | .abandonRegistration _ | .abandonUpdate _ => true

end

/-! ## Honest names -/

/-- A name that may be written, as far as the table does not matter. -/
structure Fit (lower : JsText → JsText) (name : JsText) : Prop where
  label : IsLabel name
  reserved : ∀ r ∈ RESERVED_NICKNAMES, readsAs lower name r = false

structure Sound (lower : JsText → JsText) (s : State) : Prop where
  honest : Honest lower s.users
  updates : s.updates.Every fun upd => ∀ name ∈ upd.displayName, Fit lower name

section
variable {lower : JsText → JsText} {s t : State} {users : List User}

theorem honest_insertUser {userId : ℕ} {username : JsText} (h : Honest lower users)
    (hnew : ∀ u ∈ users, ∀ name ∈ u.displayName, readsAs lower name username = false) :
    Honest lower (insertUser users ⟨userId, username, none⟩) := by
  rw [insertUser]
  split_ifs
  · exact h
  · intro u hu name hname
    rcases List.mem_append.1 hu with hu | hu
    · obtain ⟨hhandle, hrest⟩ := h u hu name hname
      refine ⟨fun v hv hne => ?_, hrest⟩
      rcases List.mem_append.1 hv with hv | hv
      · exact hhandle v hv hne
      · rw [List.mem_singleton.1 hv]
        exact hnew u hu name hname
    · rw [List.mem_singleton.1 hu] at hname
      cases hname

theorem honest_setDisplayName {upd : Update} (h : Honest lower users)
    (hfit : ∀ name ∈ upd.displayName, Fit lower name)
    (hfree : ∀ name ∈ upd.displayName, ∀ v ∈ users, v.id ≠ upd.userId →
      readsAs lower name v.username = false) :
    Honest lower (setDisplayName users upd) := by
  -- The write changes no id and no handle.
  have hother : ∀ {name id}, (∀ v ∈ users, v.id ≠ id → readsAs lower name v.username = false) →
      ∀ v ∈ setDisplayName users upd, v.id ≠ id → readsAs lower name v.username = false := by
    intro name id hall v hv hne
    obtain ⟨w, hw, rfl⟩ := List.mem_map.1 hv
    split_ifs at hne ⊢
    · exact hall w hw hne
    · exact hall w hw hne
  intro u hu name hname
  obtain ⟨w, hw, rfl⟩ := List.mem_map.1 hu
  split_ifs at hname ⊢ with hid
  · obtain ⟨name', hname', rfl⟩ := Option.map_eq_some_iff.1 hname
    have hf := hfit name' hname'
    rw [hf.label.toWellFormed_eq]
    exact ⟨hother (hid ▸ hfree name' hname'), hf.reserved, hf.label.sanitize_eq⟩
  · obtain ⟨hhandle, hrest⟩ := h w hw name hname
    exact ⟨hother hhandle, hrest⟩

/-- What passes the check, if it was fair to bring it. -/
theorem fit_of_patch {raw name : JsText} {userId : ℕ}
    (hfair : fair lower s (.patch userId raw) = true) (hname : sanitizeDisplayName raw = some name)
    (hcollides : displayNameCollides lower s.users name userId = false) : Fit lower name := by
  rw [fair, hname, Option.all_some, Bool.and_eq_true, decide_eq_true_eq] at hfair
  refine ⟨isLabel_sanitize hfair.1 hname, fun r hr => ?_⟩
  rw [displayNameCollides, Bool.or_eq_false_iff, decide_eq_false_iff_not] at hcollides
  rw [readsAs, Bool.or_eq_false_iff, decide_eq_false_iff_not, decide_eq_false_iff_not]
  exact ⟨fun h => hcollides.1 (h ▸ hr), fun h => hfair.2 (h ▸ hr)⟩

theorem Sound.patch {userId : ℕ} {raw : JsText} (hs : Sound lower s)
    (hfair : fair lower s (.patch userId raw) = true) :
    Sound lower (s.patch lower userId raw) := by
  rw [State.patch]
  split_ifs
  · exact hs
  · split
    · exact ⟨hs.honest, hs.updates.spawn fun _ h => by cases h⟩
    · rename_i name hname
      split_ifs with hcollides
      · exact hs
      · refine ⟨hs.honest, hs.updates.spawn fun name' hname' => ?_⟩
        obtain rfl := Option.some.inj hname'
        exact fit_of_patch hfair hname (Bool.not_eq_true _ ▸ hcollides)

theorem Sound.step {e : Event} (hs : Sound lower s) (hfair : fair lower s e = true)
    (h : step lower s e = some t) : Sound lower t := by
  cases e with
  | verify raw =>
    obtain rfl := Option.some.inj h
    rw [State.verify]
    split
    · exact hs
    · split_ifs
      · exact hs
      · exact ⟨hs.honest, hs.updates⟩
  | insert i userId =>
    obtain ⟨username, hi, rfl⟩ := Option.map_eq_some_iff.1 h
    rw [fair, hi, Option.all_some, List.all_eq_true] at hfair
    refine ⟨?_, hs.updates⟩
    change Honest lower (if _ then _ else _)
    split_ifs
    · exact hs.honest
    · refine honest_insertUser hs.honest fun u hu name hname => ?_
      have hnew := hfair u hu
      rw [show u.displayName = some name from hname, Option.all_some, Bool.not_eq_true'] at hnew
      exact hnew
  | patch userId raw => exact Option.some.inj h ▸ hs.patch hfair
  | update i =>
    obtain ⟨upd, hi, rfl⟩ := Option.map_eq_some_iff.1 h
    refine ⟨honest_setDisplayName hs.honest (hs.updates i upd hi) fun name hname v hv hne => ?_,
      hs.updates.finish⟩
    rw [fair, hi, Option.all_some, show upd.displayName = some name from hname, Option.all_some,
      List.all_eq_true] at hfair
    have hfree := hfair v hv
    rwa [decide_eq_false hne, Bool.false_or, Bool.not_eq_true'] at hfree
  | abandonRegistration i =>
    obtain ⟨_, -, rfl⟩ := Option.map_eq_some_iff.1 h
    exact ⟨hs.honest, hs.updates⟩
  | abandonUpdate i =>
    obtain ⟨_, -, rfl⟩ := Option.map_eq_some_iff.1 h
    exact ⟨hs.honest, hs.updates.finish⟩

theorem sound_start : Sound lower .start :=
  ⟨fun _ hu => absurd hu List.not_mem_nil, Tasks.Every.empty⟩

/-- Display names stay honest along the runs whose steps are fair. -/
theorem honest_of_fair
    (h : ((machine lower).restrict fun s e => fair lower s e = true).Reachable s) :
    Honest lower s.users := by
  have hinv : ((machine lower).restrict fun s e => fair lower s e = true).Invariant (Sound lower) :=
    ⟨fun _ h => h ▸ sound_start, fun _ _ _ hs h =>
      hs.step (Machine.restrict_step.1 h).1 (Machine.restrict_step.1 h).2⟩
  exact (hinv.reachable h).honest

end

namespace Sample

/-- A registration of the handle `username`. -/
def register (username : String) (i userId : ℕ) : List Event :=
  [.verify (ascii username), .insert i userId]

/-- An account displays a name that is that of nobody. -/
def displayed : List Event :=
  register "alice" 0 1 ++ [.patch 1 (ascii " Alice  W "), .update 0] ++ register "bob" 1 2

/-- The handle of a displayed name is taken. -/
def takenAfter : List Event :=
  register "alice" 0 1 ++ [.patch 1 (ascii "Bob"), .update 0] ++ register "bob" 1 2

/-- The handle of a name is taken while the name is being written. -/
def takenMeanwhile : List Event :=
  register "alice" 0 1 ++ [.patch 1 (ascii "B ob")] ++ register "bob" 1 2 ++ [.update 0]

/-- A reserved name, with a blank in it. -/
def reserved : List Event := register "alice" 0 1 ++ [.patch 1 (ascii "Ad min"), .update 0]

/-- The halves of the invisible `U+E0001`, with an invisible code point between them. -/
def halves : List Event :=
  register "alice" 0 1 ++ [.patch 1 (ascii "Bo" ++ [0xDB40, 0x200B, 0xDC01]), .update 0]

end Sample

theorem honest_of_fair_displayed :
    ∃ t, (machine toLowerCase).run .start Sample.displayed = some t ∧
      t.users.map (·.displayName) = [some (ascii "Alice W"), none] ∧
      Honest toLowerCase t.users := by
  have hrun : (((machine toLowerCase).restrict fun s e => fair toLowerCase s e = true).run .start
      Sample.displayed).map (fun t => t.users.map (·.displayName)) =
        some [some (ascii "Alice W"), none] := by decide +kernel
  obtain ⟨t, hok, hnames⟩ := Option.map_eq_some_iff.1 hrun
  exact ⟨t, Machine.run_of_restrict hok, hnames, honest_of_fair (Machine.reachable_of_run hok rfl)⟩

/-- Names that read as a handle, or as a reserved name, or that sanitizing changes once more. -/
theorem impersonated :
    (∃ t, (machine toLowerCase).run .start Sample.takenAfter = some t ∧
      ¬Honest toLowerCase t.users) ∧
    (∃ t, (machine toLowerCase).run .start Sample.takenMeanwhile = some t ∧
      ¬Honest toLowerCase t.users) ∧
    (∃ t, (machine toLowerCase).run .start Sample.reserved = some t ∧
      ¬Honest toLowerCase t.users) ∧
    ∃ t, (machine toLowerCase).run .start Sample.halves = some t ∧
      ¬Honest toLowerCase t.users := by
  have hrun : ∀ es ∈ [Sample.takenAfter, Sample.takenMeanwhile, Sample.reserved, Sample.halves],
      ((machine toLowerCase).run .start es).map (fun t => decide (Honest toLowerCase t.users)) =
        some false := by decide +kernel
  have hnot : ∀ es ∈ [Sample.takenAfter, Sample.takenMeanwhile, Sample.reserved, Sample.halves],
      ∃ t, (machine toLowerCase).run .start es = some t ∧ ¬Honest toLowerCase t.users := by
    intro es hes
    obtain ⟨t, ht, hnot⟩ := Option.map_eq_some_iff.1 (hrun es hes)
    exact ⟨t, ht, of_decide_eq_false hnot⟩
  simpa using hnot

end OneToThree.DisplayNames
