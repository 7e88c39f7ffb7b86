import OneToThree.Lib.JsonUnits
import OneToThree.Lib.Machine
import OneToThree.Lib.Tasks

/-!
# Handles

A handle is looked up in its canonical form, in lower case. The rows of older accounts have handles
of any casing, and there is an index over their lower case that no two rows share. Sign-in and
recovery compare the lower case of a row, as the index does; the routes of the passkeys compare the
row as it is.

* `Handles.machine`: registrations, guests, deletions and passkeys, step by step.
* `resolves_iff`: all routes find the account of a handle exactly if its row is in canonical form,
  or it has no passkey.
-/

namespace OneToThree.Handles

open JsText

/-! ## Nicknames -/

/-- The lower case of handles, which are in ASCII. -/
def toLowerCase (s : JsText) : JsText := s.map fun u => if 0x41 ≤ u ∧ u ≤ 0x5A then u + 32 else u

def isNicknameUnit (u : ℕ) : Bool :=
  (0x61 ≤ u ∧ u ≤ 0x7A) || (0x41 ≤ u ∧ u ≤ 0x5A) || (0x30 ≤ u ∧ u ≤ 0x39) || u = 0x5F || u = 0x2E ||
    u = 0x2D

def NICKNAME_PATTERN (s : JsText) : Bool := 3 ≤ s.length && s.length ≤ 32 && s.all isNicknameUnit

def RESERVED_NICKNAMES : List JsText :=
  ["admin", "administrator", "system", "support", "root", "moderator", "mod", "null", "undefined",
    "help"].map ascii

inductive NicknameError
  | INVALID_USERNAME_FORMAT
  | USERNAME_RESERVED

structure Nickname where
  value : JsText
  display : JsText

def parseNickname (raw : JsText) : Except NicknameError Nickname :=
  let s := trim raw
  if raw = [] ∨ ¬NICKNAME_PATTERN s then .error .INVALID_USERNAME_FORMAT
  else if toLowerCase s ∈ RESERVED_NICKNAMES then .error .USERNAME_RESERVED
  else .ok ⟨toLowerCase s, s⟩

/-! ## Lookups -/

structure User where
  id : ℕ
  username : JsText
  deriving DecidableEq

structure PasskeyKeyring where
  id : ℕ
  userId : ℕ
  credentialId : JsText
  deriving DecidableEq

section
variable (users : List User) (keyrings : List PasskeyKeyring)

/-- The rows with a handle, by what is compared of them. -/
def rowsOf (column : JsText → JsText) (username : JsText) : List User :=
  users.filter fun u => column u.username = username

/-- The account of `POST /verify`. -/
def verifyRow (username : JsText) : Option User := (rowsOf users toLowerCase username).head?

/-- The account of `POST /recovery/complete`. -/
def recoveryRow (username : JsText) : Option User := (rowsOf users toLowerCase username).head?

/-- The passkeys of `POST /login/options`, joined with the rows of a handle as it is. -/
def loginOptionsRows (username : JsText) : List PasskeyKeyring :=
  keyrings.filter fun k => (rowsOf users id username).any (·.id = k.userId)

/-- The passkey of `POST /login/verify`. -/
def loginVerifyRow (username credId : JsText) : Option PasskeyKeyring :=
  (keyrings.filter fun k => (rowsOf users id username).any (·.id = k.userId) &&
    k.credentialId = credId).head?

/-- The key of the lockout counter. -/
def lockoutKey (username : JsText) : JsText := ascii "auth:fail:" ++ toLowerCase username

/-- The account of a handle, whatever its casing. -/
def accountOf (handle : JsText) : Option User :=
  users.find? fun u => toLowerCase u.username = toLowerCase handle

def passkeysOf (account : Option User) : List PasskeyKeyring :=
  keyrings.filter fun k => account.any (·.id = k.userId)

/-- Every route finds the account of a handle. -/
structure Resolves (username : JsText) : Prop where
  verify : verifyRow users username = accountOf users username
  recovery : recoveryRow users username = accountOf users username
  loginOptions : loginOptionsRows users keyrings username =
    passkeysOf keyrings (accountOf users username)
  loginVerify : ∀ credId, loginVerifyRow users keyrings username credId =
    (passkeysOf keyrings (accountOf users username)).find? (·.credentialId = credId)
  lockout : ∀ u ∈ users, lockoutKey u.username = lockoutKey username ↔
    accountOf users username = some u

/-- The row of the account is in canonical form, or the account has no passkey. -/
def CanonicalOrNoPasskey (username : JsText) : Prop :=
  ∀ u, accountOf users username = some u → u.username = username ∨ ∀ k ∈ keyrings, k.userId ≠ u.id

end

/-! ## Registrations -/

structure State where
  users : List User
  keyrings : List PasskeyKeyring
  /-- Registrations that found no account and have not inserted one, by their handle. -/
  registrations : Tasks JsText

inductive Event
  /-- A request to `POST /verify` that brings a key. -/
  | verify (raw : JsText)
  /-- A registration inserts its account, unless the handle is kept for guests. -/
  | insert (i : ℕ) (userId : ℕ)
  | abandon (i : ℕ)
  | enterGuest (bytes : List UInt8) (userId : ℕ)
  /-- An account is deleted; the messages of deleted accounts belong to one of their own. -/
  | delete (userId : ℕ)
  | addPasskey (keyring : PasskeyKeyring)
  | removePasskey (id : ℕ)

def hexDigit (n : ℕ) : ℕ := if n < 10 then 0x30 + n else 0x57 + n

def guestUsername (bytes : List UInt8) : JsText :=
  ascii "guest_" ++ bytes.flatMap fun b => [hexDigit (b.toNat / 16), hexDigit (b.toNat % 16)]

def DELETED_USER_USERNAME : JsText := ascii "[deleted]"

/-- The primary key and the index over the lower case of the handles. -/
def conflicts (users : List User) (u : User) : Bool :=
  users.any fun v => v.id = u.id || toLowerCase v.username = toLowerCase u.username

def insertUser (users : List User) (u : User) : List User :=
  if conflicts users u then users else users ++ [u]

/-- Ids are unique, and so are handles up to their casing; passkeys belong to accounts. -/
structure Shape (s : State) : Prop where
  ids : (s.users.map (·.id)).Nodup
  handles : (s.users.map fun u => toLowerCase u.username).Nodup
  owned : ∀ k ∈ s.keyrings, ∃ u ∈ s.users, u.id = k.userId

/-- `deletedId`: the id of the account that the messages of deleted ones belong to. -/
def machine (deletedId : ℕ) : Machine State Event where
  init s := Shape s ∧ s.registrations = .empty
  step s
    | .verify raw =>
      match parseNickname raw with
      | .ok nick =>
        if (verifyRow s.users nick.value).isSome then some s
        else some { s with registrations := s.registrations.spawn nick.value }
      | .error _ => some s
    | .insert i userId => (s.registrations.get? i).map fun username =>
      { s with
        users :=
          if (ascii "guest_").isPrefixOf username then s.users
          else insertUser s.users ⟨userId, username⟩
        registrations := s.registrations.finish i }
    | .abandon i => (s.registrations.get? i).map fun _ =>
      { s with registrations := s.registrations.finish i }
    | .enterGuest bytes userId =>
      some { s with users := insertUser s.users ⟨userId, guestUsername bytes⟩ }
    | .delete userId =>
      if userId = deletedId then none
      else some { s with
        users := (insertUser s.users ⟨deletedId, DELETED_USER_USERNAME⟩).filter (·.id ≠ userId)
        keyrings := s.keyrings.filter (·.userId ≠ userId) }
    | .addPasskey keyring =>
      if s.users.any (·.id = keyring.userId) then
        some { s with keyrings :=
          if s.keyrings.any (·.credentialId = keyring.credentialId) then s.keyrings
          else s.keyrings ++ [keyring] }
      else none
    | .removePasskey id => some { s with keyrings := s.keyrings.filter (·.id ≠ id) }

/-! ## The table keeps its shape -/

section
variable {s t : State} {users : List User} {u : User}

theorem subset_insertUser {v : User} (h : v ∈ users) : v ∈ insertUser users u := by
  rw [insertUser]
  split_ifs
  · exact h
  · exact List.mem_append_left _ h

/-- A column that the constraints cover stays without duplicates. -/
theorem nodup_insertUser {A : Type} {f : User → A} (h : (users.map f).Nodup)
    (hconflict : ∀ v, f v = f u → v.id = u.id ∨ toLowerCase v.username = toLowerCase u.username) :
    ((insertUser users u).map f).Nodup := by
  rw [insertUser]
  split_ifs with hc
  · exact h
  · rw [List.map_append, List.map_singleton, List.nodup_append]
    refine ⟨h, List.nodup_singleton _, fun a ha b hb hab => ?_⟩
    obtain ⟨v, hv, rfl⟩ := List.mem_map.1 ha
    obtain rfl := List.mem_singleton.1 hb
    refine hc (List.any_eq_true.2 ⟨v, hv, ?_⟩)
    simpa using hconflict v hab

theorem Shape.congr (h : Shape s) (ht : t.users = s.users) (hk : t.keyrings = s.keyrings) :
    Shape t :=
  ⟨ht ▸ h.ids, ht ▸ h.handles, fun k hk' => ht ▸ h.owned k (hk ▸ hk')⟩

theorem Shape.insert (h : Shape s) (ht : t.users = insertUser s.users u)
    (hk : t.keyrings = s.keyrings) : Shape t where
  ids := ht ▸ nodup_insertUser h.ids fun _ => .inl
  handles := ht ▸ nodup_insertUser h.handles fun _ => .inr
  owned k hk' := by
    obtain ⟨v, hv, hid⟩ := h.owned k (hk ▸ hk')
    exact ⟨v, ht ▸ subset_insertUser hv, hid⟩

theorem shape_step {deletedId : ℕ} {e : Event} (hs : Shape s)
    (h : (machine deletedId).step s e = some t) : Shape t := by
  cases e with
  | verify raw =>
    simp only [machine] at h
    split at h
    · split_ifs at h
      · exact Option.some.inj h ▸ hs
      · exact Option.some.inj h ▸ hs.congr rfl rfl
    · exact Option.some.inj h ▸ hs
  | insert i userId =>
    obtain ⟨username, -, rfl⟩ := Option.map_eq_some_iff.1 h
    by_cases hguest : (ascii "guest_").isPrefixOf username = true
    · exact hs.congr (if_pos hguest) rfl
    · exact hs.insert (if_neg hguest) rfl
  | abandon i =>
    obtain ⟨username, -, rfl⟩ := Option.map_eq_some_iff.1 h
    exact hs.congr rfl rfl
  | enterGuest bytes userId => exact Option.some.inj h ▸ hs.insert rfl rfl
  | delete userId =>
    simp only [machine] at h
    split_ifs at h
    obtain rfl := Option.some.inj h
    have hinsert : Shape { s with
        users := insertUser s.users ⟨deletedId, DELETED_USER_USERNAME⟩ } := hs.insert rfl rfl
    refine ⟨hinsert.ids.sublist (List.filter_sublist.map _),
      hinsert.handles.sublist (List.filter_sublist.map _), fun k hk => ?_⟩
    obtain ⟨hk, hne⟩ := List.mem_filter.1 hk
    obtain ⟨v, hv, hid⟩ := hinsert.owned k hk
    exact ⟨v, List.mem_filter.2 ⟨hv, hid ▸ hne⟩, hid⟩
  | addPasskey keyring =>
    simp only [machine] at h
    split_ifs at h with howner hexists
    · exact Option.some.inj h ▸ hs
    · obtain rfl := Option.some.inj h
      refine ⟨hs.ids, hs.handles, fun k hk => ?_⟩
      rcases List.mem_append.1 hk with hk | hk
      · exact hs.owned k hk
      · obtain rfl := List.mem_singleton.1 hk
        obtain ⟨v, hv, hid⟩ := List.any_eq_true.1 howner
        exact ⟨v, hv, of_decide_eq_true hid⟩
  | removePasskey id =>
    exact Option.some.inj h ▸
      ⟨hs.ids, hs.handles, fun k hk => hs.owned k (List.mem_filter.1 hk).1⟩

theorem shape_of_reachable {deletedId : ℕ} (hs : (machine deletedId).Reachable s) : Shape s := by
  refine Machine.Invariant.reachable ⟨?_, fun _ _ _ => shape_step⟩ hs
  exact fun _ h => h.1

end

/-! ## The routes -/

section
variable {s : State} {username : JsText} {u : User}

theorem toLowerCase_toLowerCase (t : JsText) : toLowerCase (toLowerCase t) = toLowerCase t := by
  rw [toLowerCase, toLowerCase, List.map_map]
  refine List.map_congr_left fun u _ => ?_
  dsimp only [Function.comp]
  split_ifs <;> omega

theorem parseNickname_value {raw : JsText} {nick : Nickname} (h : parseNickname raw = .ok nick) :
    toLowerCase nick.value = nick.value := by
  unfold parseNickname at h
  dsimp only at h
  split_ifs at h
  obtain rfl := Except.ok.inj h
  exact toLowerCase_toLowerCase _

theorem accountOf_eq_some (hs : Shape s) : accountOf s.users username = some u ↔
    u ∈ s.users ∧ toLowerCase u.username = toLowerCase username := by
  constructor
  · intro h
    have hhandle := List.find?_some h
    exact ⟨List.mem_of_find?_eq_some h, of_decide_eq_true hhandle⟩
  · rintro ⟨hu, hhandle⟩
    have hsome : (accountOf s.users username).isSome :=
      List.find?_isSome.2 ⟨u, hu, decide_eq_true hhandle⟩
    obtain ⟨v, hv⟩ := Option.isSome_iff_exists.1 hsome
    have hvhandle := List.find?_some hv
    -- The index has one row for a handle.
    obtain rfl := List.inj_on_of_nodup_map hs.handles (List.mem_of_find?_eq_some hv) hu
      ((of_decide_eq_true hvhandle).trans hhandle.symm)
    exact hv

theorem verifyRow_eq (hcanonical : toLowerCase username = username) :
    verifyRow s.users username = accountOf s.users username := by
  rw [verifyRow, rowsOf, List.head?_filter, accountOf, hcanonical]

theorem lockoutKey_iff (hs : Shape s) (hu : u ∈ s.users) :
    lockoutKey u.username = lockoutKey username ↔ accountOf s.users username = some u := by
  rw [accountOf_eq_some hs, lockoutKey, lockoutKey, List.append_cancel_left_eq]
  exact ⟨fun h => ⟨hu, h⟩, fun h => h.2⟩

/-- A handle as it is finds the account in canonical form alone. -/
theorem any_rowsOf_iff (hs : Shape s) (hcanonical : toLowerCase username = username)
    {userId : ℕ} : (rowsOf s.users id username).any (·.id = userId) = true ↔
      ∃ u, accountOf s.users username = some u ∧ u.id = userId ∧ u.username = username := by
  simp only [rowsOf, List.any_eq_true, List.mem_filter, decide_eq_true_eq, id,
    accountOf_eq_some hs]
  constructor
  · rintro ⟨u, ⟨hu, rfl⟩, rfl⟩
    exact ⟨u, ⟨hu, rfl⟩, rfl, rfl⟩
  · rintro ⟨u, ⟨hu, -⟩, rfl, rfl⟩
    exact ⟨u, ⟨hu, rfl⟩, rfl⟩

theorem loginOptionsRows_eq_iff (hs : Shape s) (hcanonical : toLowerCase username = username) :
    loginOptionsRows s.users s.keyrings username =
      passkeysOf s.keyrings (accountOf s.users username) ↔
    CanonicalOrNoPasskey s.users s.keyrings username := by
  rw [loginOptionsRows, passkeysOf]
  constructor
  · intro h u hu
    refine Classical.or_iff_not_imp_left.2 fun hother k hk hid => ?_
    have hmem : k ∈ s.keyrings.filter fun k =>
        (accountOf s.users username).any (·.id = k.userId) := by
      rw [List.mem_filter, hu]
      exact ⟨hk, decide_eq_true hid.symm⟩
    rw [← h] at hmem
    obtain ⟨v, hv, -, hcanonical'⟩ :=
      (any_rowsOf_iff hs hcanonical).1 (List.mem_filter.1 hmem).2
    obtain rfl := Option.some.inj (hu.symm.trans hv)
    exact hother hcanonical'
  · intro h
    refine List.filter_congr fun k hk => ?_
    rw [Bool.eq_iff_iff, any_rowsOf_iff hs hcanonical, Option.any_eq_true]
    constructor
    · rintro ⟨u, hu, hid, -⟩
      exact ⟨u, hu, decide_eq_true hid⟩
    · rintro ⟨u, hu, hid⟩
      have hid' : u.id = k.userId := of_decide_eq_true hid
      exact ⟨u, hu, hid', (h u hu).resolve_right fun hnone => hnone k hk hid'.symm⟩

theorem loginVerifyRow_eq (credId : JsText) : loginVerifyRow s.users s.keyrings username credId =
    (loginOptionsRows s.users s.keyrings username).find? (·.credentialId = credId) := by
  rw [loginVerifyRow, loginOptionsRows, ← List.head?_filter, List.filter_filter]
  refine congrArg List.head? (List.filter_congr fun k _ => ?_)
  exact Bool.and_comm _ _

/-- The table keeps its shape, and all routes find the account of a nickname exactly if its row is
    in canonical form or it has no passkey. -/
theorem resolves_iff {deletedId : ℕ} (hs : (machine deletedId).Reachable s) {raw : JsText}
    {nick : Nickname} (h : parseNickname raw = .ok nick) : Shape s ∧
      (Resolves s.users s.keyrings nick.value ↔
        CanonicalOrNoPasskey s.users s.keyrings nick.value) := by
  have hshape := shape_of_reachable hs
  have hcanonical := parseNickname_value h
  refine ⟨hshape, ?_⟩
  rw [← loginOptionsRows_eq_iff hshape hcanonical]
  refine ⟨fun hresolves => hresolves.loginOptions, fun hoptions => ?_⟩
  exact {
    verify := verifyRow_eq hcanonical
    recovery := verifyRow_eq hcanonical
    loginOptions := hoptions
    loginVerify := fun credId => (loginVerifyRow_eq credId).trans (by rw [hoptions])
    lockout := fun u hu => lockoutKey_iff hshape hu }

end

namespace Sample

/-- An account from before handles were canonical, with a passkey. -/
def oldAccount : State where
  users := [⟨1, ascii "RudyWolf"⟩]
  keyrings := [⟨0, 1, ascii "credential"⟩]
  registrations := .empty

def newAccount : State := { oldAccount with users := [⟨1, ascii "rudywolf"⟩] }

end Sample

open Sample

theorem resolves_iff_newAccount :
    Resolves newAccount.users newAccount.keyrings (ascii "rudywolf") := by
  have hreachable : (machine 0).Reachable newAccount :=
    .init ⟨⟨by decide, by decide, by decide⟩, rfl⟩
  have hnick : parseNickname (ascii "RudyWolf") = .ok ⟨ascii "rudywolf", ascii "RudyWolf"⟩ := rfl
  refine (resolves_iff hreachable hnick).2.2 fun u hu => .inl ?_
  have haccount : accountOf newAccount.users (ascii "rudywolf") = some ⟨1, ascii "rudywolf"⟩ := rfl
  obtain rfl := Option.some.inj (haccount.symm.trans hu)
  rfl

/-- The passkey of an old account is not found under its handle. -/
theorem old_account_locked_out : ∃ s nick, (machine 0).Reachable s ∧
    parseNickname (ascii "RudyWolf") = .ok nick ∧
      verifyRow s.users nick.value = some ⟨1, ascii "RudyWolf"⟩ ∧
      s.keyrings.any (·.userId = 1) = true ∧
      loginOptionsRows s.users s.keyrings nick.value = [] :=
  ⟨oldAccount, _, .init ⟨⟨by decide, by decide, by decide⟩, rfl⟩, rfl, by decide, by decide,
    by decide⟩

end OneToThree.Handles
