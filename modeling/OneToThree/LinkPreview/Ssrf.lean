import Mathlib.Data.List.TakeWhile
import OneToThree.Lib.IpText

/-!
# Addresses that the server must not fetch from

The guard of server-side fetches, `isPrivateOrLoopbackAddress`, looks at the text of an address.
What it should say depends on the address only (`IpAddress.internal`), and an IPv6 address has
many texts (`IpAddress.HasText`).

* For IPv4 the answer is right, whatever the address.
* For IPv6 a comparison with a whole text (`::1`, `::`), or with the start of a text that may be
  written in other ways (`::ffff:` and an IPv4 address, `64:ff9b:`, `fc` and `fd` where these are
  not the first byte of the address), misses the other texts of an address, and `fe80:` is but
  one of the groups that link-local addresses start with. The addresses that are classified
  right are those that none of this concerns (`classified_iff`).

Texts are lists of characters. The comparisons in lower case are made on texts of addresses,
which are ASCII.
-/

namespace OneToThree.LinkPreview

open IpText

/-! ## The guard -/

def toLowerCase (t : List Char) : List Char := t.map Char.toLower

def startsWith (t : List Char) (start : String) : Bool := start.toList.isPrefixOf t

/-- Dotted IPv4 for IPv4-mapped IPv6. -/
def normalizeToIpv4 (addr : List Char) : Option (List Char) :=
  if isIPv4 addr then some addr
  else if !isIPv6 addr then none
  else if startsWith (toLowerCase addr) "::ffff:" then
    let tail := addr.drop 7
    if isIPv4 tail then some tail else none
  else none

/-- `Number.parseInt` of a word that starts with a digit. -/
def parseInt (x : List Char) : ℕ := decimal (x.takeWhile Char.isDigit)

/-- The private ranges of IPv4, by the first two octets. -/
def isPrivateIpv4 (a b : ℕ) : Bool :=
  a = 127 || a = 0
    || a = 10
    || (a = 172 && 16 ≤ b && b ≤ 31)
    || (a = 192 && b = 168)
    || (a = 169 && b = 254)
    || (a = 100 && 64 ≤ b && b ≤ 127)

def isPrivateOrLoopbackAddress (addr : List Char) : Bool :=
  match normalizeToIpv4 addr with
  | some v4 =>
    let octets := (v4.splitOn '.').map parseInt
    isPrivateIpv4 (octets.getD 0 0) (octets.getD 1 0)
  | none =>
    let lower := toLowerCase addr
    isIPv6 addr &&
      (lower = "::1".toList
        -- Unique local.
        || (startsWith lower "fc" || startsWith lower "fd")
        -- Link-local.
        || startsWith lower "fe80:"
        || lower = "::".toList
        -- NAT64.
        || startsWith lower "64:ff9b:"
        -- 6to4.
        || startsWith lower "2002:")

/-- The address that a fetch connects to. -/
structure Pinned where
  address : List Char
  family : ℕ

inductive FetchError
  | dnsFailed
  | ssrfBlocked
  deriving DecidableEq

def FetchError.message : FetchError → String
  | dnsFailed => "DNS_FAILED"
  | ssrfBlocked => "SSRF_BLOCKED"

/-- What a fetch may connect to, of the addresses that a name resolves to: IPv4 if there is one. -/
def assertHostnameSafeForFetch (results : List (List Char)) : Except FetchError Pinned :=
  match results with
  | [] => .error .dnsFailed
  | first :: _ =>
    if results.any isPrivateOrLoopbackAddress then .error .ssrfBlocked
    else
      let prefer := (results.find? isIPv4).getD first
      .ok ⟨prefer, if isIPv4 prefer then 4 else 6⟩

structure Ipv4 where
  octets : List ℕ
  length_eq : octets.length = 4
  lt : ∀ n ∈ octets, n < 256

structure Ipv6 where
  groups : List ℕ
  length_eq : groups.length = 8
  lt : ∀ g ∈ groups, g < 65536

inductive IpAddress
  | v4 (a : Ipv4)
  | v6 (a : Ipv6)

/-- The text is one of the texts of the address. -/
def IpAddress.HasText : IpAddress → List Char → Prop
  | v4 a, t => ipv4 t = some a.octets
  | v6 a, t => ipv6 t = some a.groups

/-- Loopback, the unspecified address, the private networks, link-local and carrier-grade
    addresses. -/
def internalIpv4 (octets : List ℕ) : Bool :=
  let a := octets.getD 0 0
  let b := octets.getD 1 0
  a = 127 || octets = [0, 0, 0, 0]
    || (a = 10 || (a = 172 && b / 16 = 1) || (a = 192 && b = 168))
    || (a = 169 && b = 254)
    || (a = 100 && b / 64 = 1)

/-- The IPv4 address that an IPv6 address is mapped from. -/
def mappedFrom (groups : List ℕ) : Option (List ℕ) :=
  if groups.take 6 = [0, 0, 0, 0, 0, 0xffff] then
    some ((groups.drop 6).flatMap fun g => [g / 256, g % 256])
  else none

/-- Loopback, the unspecified address, link-local and unique local addresses, and what is
    mapped from an internal address. -/
def internalIpv6 (groups : List ℕ) : Bool :=
  let g := groups.getD 0 0
  groups = [0, 0, 0, 0, 0, 0, 0, 1] || groups = [0, 0, 0, 0, 0, 0, 0, 0]
    || g / 64 = 0xfe80 / 64
    || g / 512 = 0xfc00 / 512
    || (mappedFrom groups).any internalIpv4

def IpAddress.internal : IpAddress → Bool
  | v4 a => internalIpv4 a.octets
  | v6 a => internalIpv6 a.groups

/-- The guard gives one answer for all texts of the address, and it is yes if the address is
    internal. -/
structure IpAddress.Classified (a : IpAddress) : Prop where
  agree : ∀ t t', a.HasText t → a.HasText t' →
    isPrivateOrLoopbackAddress t = isPrivateOrLoopbackAddress t'
  internal : a.internal → ∀ t, a.HasText t → isPrivateOrLoopbackAddress t

/-- What the guard recognises of an IPv6 address in some texts only, or not at all. -/
def misspelt (groups : List ℕ) : Bool :=
  let g := groups.getD 0 0
  -- `::1` and `::`, written otherwise.
  groups = [0, 0, 0, 0, 0, 0, 0, 1] || groups = [0, 0, 0, 0, 0, 0, 0, 0]
    -- IPv4-mapped, written otherwise than `::ffff:` and dotted.
    || (mappedFrom groups).any (fun octets => isPrivateIpv4 (octets.getD 0 0) (octets.getD 1 0))
    -- Link-local, with another first group than `fe80`.
    || (0xfe80 < g && g ≤ 0xfebf)
    -- A first group of two or three digits that start with `fc` or `fd`, or zeros before them.
    || (g = 0xfc || g = 0xfd || g / 16 = 0xfc || g / 16 = 0xfd)
    -- `64`, or zeros before it.
    || (g = 0x64 && groups.getD 1 0 = 0xff9b)

def IpAddress.misspelt : IpAddress → Bool
  | v4 _ => false
  | v6 a => LinkPreview.misspelt a.groups

/-! ## The start of a text -/

/-- A word of digits and a colon start a text that starts with a word of digits if the words are
    the same. -/
theorem isPrefixOf_word {ps ds : List ℕ} (hps : ∀ p ∈ ps, p < 16) (hds : ∀ d ∈ ds, d < 16)
    (q r : List Char) :
    (ps.map hexChar ++ ':' :: q).isPrefixOf (ds.map hexChar ++ ':' :: r) =
      (ps == ds && q.isPrefixOf r) := by
  induction ps generalizing ds with
  | nil =>
    cases ds with
    | nil => simp
    | cons d ds =>
      have hd := beq_eq_false_iff_ne.2 (hexChar_ne_colon d (hds d List.mem_cons_self)).symm
      simp [List.isPrefixOf, hd]
  | cons p ps ih =>
    have hp := List.forall_mem_cons.1 hps
    cases ds with
    | nil => simp [List.isPrefixOf, hexChar_ne_colon p hp.1]
    | cons d ds =>
      have hd := List.forall_mem_cons.1 hds
      simp only [List.map_cons, List.cons_append, List.isPrefixOf_cons_cons, ih hp.2 hd.2,
        hexChar_beq hp.1 hd.1, List.cons_beq_cons, Bool.and_assoc]

/-- Digits start a text that starts with a word of digits if they start the word. -/
theorem isPrefixOf_digits {ps ds : List ℕ} (hps : ∀ p ∈ ps, p < 16) (hds : ∀ d ∈ ds, d < 16)
    (r : List Char) :
    (ps.map hexChar).isPrefixOf (ds.map hexChar ++ ':' :: r) = ps.isPrefixOf ds := by
  induction ps generalizing ds with
  | nil => simp
  | cons p ps ih =>
    have hp := List.forall_mem_cons.1 hps
    cases ds with
    | nil => simp [List.isPrefixOf, hexChar_ne_colon p hp.1]
    | cons d ds =>
      have hd := List.forall_mem_cons.1 hds
      simp only [List.map_cons, List.cons_append, List.isPrefixOf_cons_cons, ih hp.2 hd.2,
        hexChar_beq hp.1 hd.1]

/-- A text with a colon is none of an IPv4 address. -/
theorem isIPv4_of_colon {t : List Char} (h : ':' ∈ t) : isIPv4 t = false := by
  unfold isIPv4
  cases hos : ipv4 t with
  | none => rfl
  | some os => exact absurd (mem_ipv4 hos _ h) (by decide)

/-- The guard on a text that starts with a word of digits. -/
theorem guard_word {w rest : List Char} {ds : List ℕ} (hw : hexDigits w = some ds)
    (hne : ds ≠ []) (hv6 : isIPv6 (w ++ ':' :: rest) = true) :
    isPrivateOrLoopbackAddress (w ++ ':' :: rest) =
      ([15, 12].isPrefixOf ds || [15, 13].isPrefixOf ds || [15, 14, 8, 0] == ds
        || ([6, 4] == ds && startsWith (toLowerCase rest) "ff9b:")
        || [2, 0, 0, 2] == ds) := by
  obtain ⟨hlower, hds⟩ := toLower_of_hexDigits hw
  have htext : toLowerCase (w ++ ':' :: rest) = ds.map hexChar ++ ':' :: toLowerCase rest := by
    rw [toLowerCase, List.map_append, hlower]
    rfl
  obtain ⟨d, ds', rfl⟩ := List.exists_cons_of_ne_nil hne
  have hd := hexChar_ne_colon d (hds d List.mem_cons_self)
  have hmapped : startsWith (toLowerCase (w ++ ':' :: rest)) "::ffff:" = false := by
    rw [htext, startsWith, List.map_cons]
    simp [List.isPrefixOf, hd.symm]
  have hnone : normalizeToIpv4 (w ++ ':' :: rest) = none := by
    simp only [normalizeToIpv4, isIPv4_of_colon (List.mem_append_right w List.mem_cons_self), hv6,
      hmapped, Bool.not_true, Bool.false_eq_true, ↓reduceIte]
  have hloop : toLowerCase (w ++ ':' :: rest) ≠ "::1".toList := by
    rw [htext, List.map_cons]
    simp [hd]
  have hzero : toLowerCase (w ++ ':' :: rest) ≠ "::".toList := by
    rw [htext, List.map_cons]
    simp [hd]
  have hword : ∀ (ps : List ℕ) (q : List Char) (start : String), (∀ p ∈ ps, p < 16) →
      start.toList = ps.map hexChar ++ ':' :: q →
      startsWith (toLowerCase (w ++ ':' :: rest)) start =
        (ps == d :: ds' && q.isPrefixOf (toLowerCase rest)) := fun ps q start hps h => by
    rw [startsWith, htext, h, isPrefixOf_word hps hds]
  have hdigits : ∀ (ps : List ℕ) (start : String), (∀ p ∈ ps, p < 16) →
      start.toList = ps.map hexChar →
      startsWith (toLowerCase (w ++ ':' :: rest)) start = ps.isPrefixOf (d :: ds') :=
    fun ps start hps h => by rw [startsWith, htext, h, isPrefixOf_digits hps hds]
  simp only [isPrivateOrLoopbackAddress, hnone, hv6, hloop, hzero, decide_false, Bool.false_or,
    Bool.or_false, Bool.true_and,
    hdigits [15, 12] "fc" (by decide) (by decide), hdigits [15, 13] "fd" (by decide) (by decide),
    hword [15, 14, 8, 0] [] "fe80:" (by decide) (by decide),
    hword [6, 4] "ff9b:".toList "64:ff9b:" (by decide) (by decide),
    hword [2, 0, 0, 2] [] "2002:" (by decide) (by decide), List.isPrefixOf_nil_left,
    Bool.and_true]
  rfl

/-! ## The guard on IPv4 addresses -/

theorem parseInt_of_octet {w : List Char} {n : ℕ} (h : octet w = some n) : parseInt w = n := by
  obtain ⟨hdigit, hvalue, -⟩ := octet_eq_some h
  rw [parseInt, List.takeWhile_eq_self_iff.2 hdigit, hvalue]

/-- The ranges are read off the octets. -/
theorem isPrivateIpv4_of_ipv4 {v4 : List Char} {os : List ℕ} (h : ipv4 v4 = some os) :
    isPrivateIpv4 (((v4.splitOn '.').map parseInt).getD 0 0)
      (((v4.splitOn '.').map parseInt).getD 1 0) = isPrivateIpv4 (os.getD 0 0) (os.getD 1 0) := by
  obtain ⟨a, b, c, d, na, nb, nc, nd, -, hsplit, ha, hb, -, -, rfl⟩ := ipv4_eq_some h
  rw [hsplit]
  simp only [List.map_cons, parseInt_of_octet ha, parseInt_of_octet hb]
  rfl

theorem guard_ipv4 {t : List Char} {os : List ℕ} (h : ipv4 t = some os) :
    isPrivateOrLoopbackAddress t = isPrivateIpv4 (os.getD 0 0) (os.getD 1 0) := by
  have hnormal : normalizeToIpv4 t = some t := by
    rw [normalizeToIpv4, if_pos (show isIPv4 t = true by rw [isIPv4, h]; rfl)]
  rw [isPrivateOrLoopbackAddress, hnormal]
  exact isPrivateIpv4_of_ipv4 h

/-- The internal addresses are in the private ranges. -/
theorem isPrivateIpv4_of_internal {os : List ℕ} (h : internalIpv4 os = true) :
    isPrivateIpv4 (os.getD 0 0) (os.getD 1 0) = true := by
  have hzero : os = [0, 0, 0, 0] → os.getD 0 0 = 0 := by
    rintro rfl
    rfl
  simp only [internalIpv4, isPrivateIpv4, Bool.or_eq_true, Bool.and_eq_true,
    decide_eq_true_eq] at h ⊢
  generalize os.getD 0 0 = a at h hzero ⊢
  generalize os.getD 1 0 = b at h ⊢
  rcases h with (((h | h) | h) | h) | h
  · omega
  · have ha := hzero h
    omega
  · omega
  · omega
  · omega

/-! ## The guard on texts that start with two colons -/

/-- What the guard takes for an IPv4 address in the text of an IPv6 address is the one that the
    address is mapped from. -/
theorem mapped_of_normalizeToIpv4 {t v4 : List Char} (hcolon : ':' ∈ t)
    (h : normalizeToIpv4 t = some v4) :
    ∃ w os, t = ':' :: ':' :: (w ++ ':' :: v4) ∧ hexGroup w = some 0xffff ∧ ipv4 v4 = some os := by
  rw [normalizeToIpv4, isIPv4_of_colon hcolon, if_neg Bool.false_ne_true] at h
  split at h
  next => exact absurd h (by simp)
  split at h
  next hstart =>
    simp only at h
    split at h
    next hv4 =>
      obtain rfl := Option.some.inj h
      obtain ⟨os, hos⟩ := Option.isSome_iff_exists.1 hv4
      obtain ⟨s, hs⟩ := List.isPrefixOf_iff_prefix.1 hstart
      have hsplit : t.map Char.toLower = [':', ':'] ++ (['f', 'f', 'f', 'f'] ++ ([':'] ++ s)) :=
        hs.symm
      obtain ⟨u, t₁, rfl, hu, ht₁⟩ := List.map_eq_append_iff.1 hsplit
      obtain ⟨w, t₂, rfl, hw, ht₂⟩ := List.map_eq_append_iff.1 ht₁
      obtain ⟨c, t₃, rfl, hc, -⟩ := List.map_eq_append_iff.1 ht₂
      obtain rfl := eq_of_map_toLower (by decide) hu
      obtain rfl := eq_of_map_toLower (by decide) hc
      have hlen : w.length = 4 := by
        rw [← List.length_map (f := Char.toLower), hw]
        rfl
      have hdrop : ([':', ':'] ++ (w ++ ([':'] ++ t₃))).drop 7 = t₃ := by
        rw [← List.append_assoc, ← List.append_assoc]
        exact List.drop_left' (by simp [hlen])
      rw [hdrop] at hos ⊢
      refine ⟨w, os, rfl, ?_, hos⟩
      rw [← hexGroup_map_toLower, hw]
      decide
    next => exact absurd h (by simp)
  next => exact absurd h (by simp)

theorem mappedFrom_joinOctets {v4 : List Char} {os : List ℕ} (h : ipv4 v4 = some os) :
    mappedFrom ([0, 0, 0, 0, 0, 0xffff] ++ joinOctets os) = some os := by
  obtain ⟨a, b, c, d, na, nb, nc, nd, -, -, -, hb, -, hd, rfl⟩ := ipv4_eq_some h
  have hb := (octet_eq_some hb).2.2
  have hd := (octet_eq_some hd).2.2
  simp only [mappedFrom, joinOctets, List.cons_append, List.nil_append, List.take_succ_cons,
    List.take_zero, List.drop_succ_cons, List.drop_zero, ↓reduceIte, List.flatMap_cons,
    List.flatMap_nil]
  rw [show (256 * na + nb) / 256 = na by omega, show (256 * na + nb) % 256 = nb by omega,
    show (256 * nc + nd) / 256 = nc by omega, show (256 * nc + nd) % 256 = nd by omega]

/-- The guard on the text of an IPv4-mapped address that ends with the IPv4 address. -/
theorem guard_mapped {t v4 : List Char} {os : List ℕ} (hnormal : normalizeToIpv4 t = some v4)
    (h : ipv4 v4 = some os) :
    isPrivateOrLoopbackAddress t = isPrivateIpv4 (os.getD 0 0) (os.getD 1 0) := by
  rw [isPrivateOrLoopbackAddress, hnormal]
  exact isPrivateIpv4_of_ipv4 h

/-- The guard on the other texts that start with two colons. -/
theorem guard_gap {rest : List Char} (hv6 : isIPv6 (':' :: ':' :: rest) = true)
    (hnormal : normalizeToIpv4 (':' :: ':' :: rest) = none) :
    isPrivateOrLoopbackAddress (':' :: ':' :: rest) = (rest == ['1'] || rest == []) := by
  have hlower : toLowerCase (':' :: ':' :: rest) = ':' :: ':' :: toLowerCase rest := rfl
  have hletter : ∀ (c : Char) (cs : List Char) (start : String), start.toList = c :: cs →
      c ≠ ':' → startsWith (toLowerCase (':' :: ':' :: rest)) start = false :=
    fun c cs start h hne => by
      rw [startsWith, h, hlower, List.isPrefixOf, beq_eq_false_iff_ne.2 hne, Bool.false_and]
  have hsame : ∀ l : List Char, l.all (fun c => c.toNat < 97) = true → l.map Char.toLower = l →
      decide (toLowerCase (':' :: ':' :: rest) = ':' :: ':' :: l) = (rest == l) := by
    intro l hl hll
    rw [Bool.eq_iff_iff, decide_eq_true_eq, beq_iff_eq, hlower, List.cons.injEq, List.cons.injEq]
    constructor
    · exact fun h => eq_of_map_toLower hl h.2.2
    · rintro rfl
      exact ⟨rfl, rfl, hll⟩
  simp only [isPrivateOrLoopbackAddress, hnormal, hv6, Bool.true_and,
    hletter 'f' ['c'] "fc" (by decide) (by decide), hletter 'f' ['d'] "fd" (by decide) (by decide),
    hletter 'f' ['e', '8', '0', ':'] "fe80:" (by decide) (by decide),
    hletter '6' "4:ff9b:".toList "64:ff9b:" (by decide) (by decide),
    hletter '2' "002:".toList "2002:" (by decide) (by decide), Bool.or_false]
  exact congrArg₂ or (hsame ['1'] (by decide) (by decide)) (hsame [] (by decide) (by decide))

/-! ## The answer for an address -/

/-- What the starts of a word say of its group. -/
theorem digits_of_group {ds : List ℕ} {g : ℕ} (hds : ∀ d ∈ ds, d < 16) (h1 : 1 ≤ ds.length)
    (h4 : ds.length ≤ 4) (hg : hexValue ds = g)
    (hfc : ¬ (g = 0xfc ∨ g = 0xfd ∨ g / 16 = 0xfc ∨ g / 16 = 0xfd)) :
    (([15, 12].isPrefixOf ds || [15, 13].isPrefixOf ds) = true ↔ g / 512 = 0xfc00 / 512) ∧
      (([15, 14, 8, 0] == ds) = true ↔ g = 0xfe80) ∧
      (([2, 0, 0, 2] == ds) = true ↔ g = 0x2002) ∧ (([6, 4] == ds) = true → g = 0x64) := by
  simp only [Bool.or_eq_true, beq_iff_eq, List.isPrefixOf_iff_prefix]
  -- A word of one, two, three or four digits.
  rcases ds with _ | ⟨a, _ | ⟨b, _ | ⟨c, _ | ⟨d, _ | ⟨e, ds⟩⟩⟩⟩⟩
  · exact absurd h1 (by simp)
  · simp only [List.forall_mem_cons] at hds
    simp only [hexValue, List.foldl_cons, List.foldl_nil] at hg
    simp
    omega
  · simp only [List.forall_mem_cons] at hds
    simp only [hexValue, List.foldl_cons, List.foldl_nil] at hg
    simp
    omega
  · simp only [List.forall_mem_cons] at hds
    simp only [hexValue, List.foldl_cons, List.foldl_nil] at hg
    simp
    omega
  · simp only [List.forall_mem_cons] at hds
    simp only [hexValue, List.foldl_cons, List.foldl_nil] at hg
    simp
    omega
  · simp only [List.length_cons] at h4
    omega

/-- What an address that is not misspelt is free of. -/
theorem misspelt_eq_false {gs : List ℕ} (h : misspelt gs = false) :
    gs ≠ [0, 0, 0, 0, 0, 0, 0, 1] ∧ gs ≠ [0, 0, 0, 0, 0, 0, 0, 0] ∧
      (∀ os, mappedFrom gs = some os → isPrivateIpv4 (os.getD 0 0) (os.getD 1 0) = false) ∧
      ¬ (0xfe80 < gs.getD 0 0 ∧ gs.getD 0 0 ≤ 0xfebf) ∧
      ¬ (gs.getD 0 0 = 0xfc ∨ gs.getD 0 0 = 0xfd ∨ gs.getD 0 0 / 16 = 0xfc ∨
        gs.getD 0 0 / 16 = 0xfd) ∧
      ¬ (gs.getD 0 0 = 0x64 ∧ gs.getD 1 0 = 0xff9b) := by
  simp only [misspelt, Bool.or_eq_false_iff, Bool.and_eq_false_iff, decide_eq_false_iff_not] at h
  obtain ⟨⟨⟨⟨⟨hone, hzero⟩, hmapped⟩, hlocal⟩, ⟨⟨hfc, hfd⟩, hfc'⟩, hfd'⟩, h64⟩ := h
  refine ⟨hone, hzero, ?_, by omega, by omega, by omega⟩
  intro os hos
  rw [hos, Option.any_some] at hmapped
  exact hmapped

/-- The guard says yes to the text of an address that is not misspelt if its first group is
    unique local, `fe80`, or the one of 6to4. -/
theorem guard_eq {t : List Char} {gs : List ℕ} (ht : ipv6 t = some gs)
    (hspelt : misspelt gs = false) :
    isPrivateOrLoopbackAddress t = true ↔
      gs.getD 0 0 / 512 = 0xfc00 / 512 ∨ gs.getD 0 0 = 0xfe80 ∨ gs.getD 0 0 = 0x2002 := by
  obtain ⟨hone, hzero, hmapped, -, hfc, h64⟩ := misspelt_eq_false hspelt
  have hv6 : isIPv6 t = true := by rw [isIPv6, ht]; rfl
  rcases ipv6_cases ht with ⟨rest, gs', rfl, rfl⟩ | ⟨w, rest, g, gs', rfl, hw, rfl, hnext⟩
  · -- The first group is zero, and the guard says no.
    have hno : isPrivateOrLoopbackAddress (':' :: ':' :: rest) = false := by
      cases hnormal : normalizeToIpv4 (':' :: ':' :: rest) with
      | some v4 =>
        obtain ⟨w, os, htext, hw, hos⟩ := mapped_of_normalizeToIpv4 List.mem_cons_self hnormal
        rw [guard_mapped hnormal hos]
        rw [htext, ipv6_mapped hw hos] at ht
        exact hmapped os (Option.some.inj ht ▸ mappedFrom_joinOctets hos)
      | none =>
        rw [guard_gap hv6 hnormal, Bool.or_eq_false_iff, beq_eq_false_iff_ne, beq_eq_false_iff_ne]
        constructor
        · rintro rfl
          exact hone (Option.some.inj (ht.symm.trans (by decide)))
        · rintro rfl
          exact hzero (Option.some.inj (ht.symm.trans (by decide)))
    rw [hno, List.getD_cons_zero]
    simp
  · obtain ⟨ds, hds, h1, h4, hg⟩ := hexGroup_eq_some.1 hw
    rw [List.getD_cons_zero] at hfc h64 ⊢
    obtain ⟨hlocal, hlink, h6to4, hnat⟩ :=
      digits_of_group (toLower_of_hexDigits hds).2 h1 h4 hg hfc
    have hno : ([6, 4] == ds && startsWith (toLowerCase rest) "ff9b:") = false := by
      rw [Bool.and_eq_false_iff, or_iff_not_imp_left, Bool.not_eq_false]
      intro h
      by_contra hstart
      rw [Bool.not_eq_false] at hstart
      -- The second word is `ff9b`.
      obtain ⟨s, hs⟩ := List.isPrefixOf_iff_prefix.1 hstart
      have hsplit : rest.map Char.toLower = ['f', 'f', '9', 'b'] ++ ([':'] ++ s) := hs.symm
      obtain ⟨w₂, t₁, rfl, hw₂, ht₁⟩ := List.map_eq_append_iff.1 hsplit
      obtain ⟨c, t₂, rfl, hc, -⟩ := List.map_eq_append_iff.1 ht₁
      obtain rfl := eq_of_map_toLower (by decide) hc
      have hg₂ : hexGroup w₂ = some 0xff9b := by
        rw [← hexGroup_map_toLower, hw₂]
        decide
      obtain ⟨gs₂, rfl⟩ := hnext w₂ t₂ _ rfl hg₂
      exact h64 ⟨hnat h, rfl⟩
    rw [guard_word hds (List.ne_nil_of_length_pos h1) hv6, hno, Bool.or_false, Bool.or_eq_true,
      Bool.or_eq_true, hlocal, hlink, h6to4, or_assoc]

/-- An internal address that is not misspelt has one of these first groups. -/
theorem group_of_internal {gs : List ℕ} (h : internalIpv6 gs = true)
    (hspelt : misspelt gs = false) :
    gs.getD 0 0 / 512 = 0xfc00 / 512 ∨ gs.getD 0 0 = 0xfe80 := by
  obtain ⟨hone, hzero, hmapped, hlocal, -, -⟩ := misspelt_eq_false hspelt
  simp only [internalIpv6, Bool.or_eq_true, decide_eq_true_eq] at h
  rcases h with (((h | h) | h) | h) | h
  · exact absurd h hone
  · exact absurd h hzero
  · exact .inr (by omega)
  · exact .inl h
  · obtain ⟨os, hos, hinternal⟩ := (Option.any_eq_true _ _).1 h
    exact absurd (isPrivateIpv4_of_internal hinternal) (by rw [hmapped os hos]; decide)

theorem classified_of_spelt {a : IpAddress} (h : a.misspelt = false) : a.Classified := by
  cases a with
  | v4 a =>
    exact ⟨fun t t' ht ht' => (guard_ipv4 ht).trans (guard_ipv4 ht').symm,
      fun hinternal t ht => (guard_ipv4 ht).trans (isPrivateIpv4_of_internal hinternal)⟩
  | v6 a =>
    constructor
    · intro t t' ht ht'
      rw [Bool.eq_iff_iff, guard_eq ht h, guard_eq ht' h]
    · intro hinternal t ht
      rw [guard_eq ht h]
      exact (group_of_internal hinternal h).imp_right .inl

/-! ## Other texts -/

/-- The four digits of a group. -/
def pad (g : ℕ) : List ℕ := [g / 4096, g / 256 % 16, g / 16 % 16, g % 16]

/-- The text of an address in eight words, the first of these digits, the others of four. -/
def spell (ds gs : List ℕ) : List Char :=
  [':'].intercalate (ds.map hexChar :: gs.map fun g => (pad g).map hexChar)

/-- The text of an IPv4-mapped address that ends with the IPv4 address. -/
def dotted (os : List ℕ) : List Char :=
  "::ffff:".toList ++ ['.'].intercalate (os.map (Nat.toDigits 10))

theorem pad_lt {g : ℕ} (h : g < 65536) : ∀ d ∈ pad g, d < 16 := by
  simp only [pad, List.forall_mem_cons]
  refine ⟨by omega, by omega, by omega, by omega, fun _ h => absurd h List.not_mem_nil⟩

theorem hexValue_pad (g : ℕ) : hexValue (pad g) = g := by
  simp only [pad, hexValue, List.foldl_cons, List.foldl_nil]
  omega

theorem hexGroup_map_hexChar {ds : List ℕ} (hds : ∀ d ∈ ds, d < 16) (h1 : 1 ≤ ds.length)
    (h4 : ds.length ≤ 4) : hexGroup (ds.map hexChar) = some (hexValue ds) :=
  hexGroup_eq_some.2 ⟨ds, hexDigits_map_hexChar hds, h1, h4, rfl⟩

theorem ipv6_spell {ds gs : List ℕ} (hds : ∀ d ∈ ds, d < 16) (h1 : 1 ≤ ds.length)
    (h4 : ds.length ≤ 4) (hlen : gs.length = 7) (hgs : ∀ g ∈ gs, g < 65536) :
    ipv6 (spell ds gs) = some (hexValue ds :: gs) := by
  refine ipv6_intercalate (by simp [hlen]) ?_
  rw [List.map_cons, List.map_cons, hexGroup_map_hexChar hds h1 h4, List.map_map]
  refine congrArg _ (List.map_congr_left fun g hg => ?_)
  have hg : hexGroup ((pad g).map hexChar) = some (hexValue (pad g)) :=
    hexGroup_map_hexChar (pad_lt (hgs g hg)) (by simp [pad]) (by simp [pad])
  rw [Function.comp_apply, hg, hexValue_pad]

/-- The guard on a text of eight words. -/
theorem guard_spell {ds gs : List ℕ} {g : ℕ} (hds : ∀ d ∈ ds, d < 16) (h1 : 1 ≤ ds.length)
    (h4 : ds.length ≤ 4) (hlen : gs.length = 6) (hgs : ∀ g' ∈ g :: gs, g' < 65536) :
    isPrivateOrLoopbackAddress (spell ds (g :: gs)) =
      ([15, 12].isPrefixOf ds || [15, 13].isPrefixOf ds || [15, 14, 8, 0] == ds
        || ([6, 4] == ds && [15, 15, 9, 11] == pad g) || [2, 0, 0, 2] == ds) := by
  have hv6 : isIPv6 (spell ds (g :: gs)) = true := by
    rw [isIPv6, ipv6_spell hds h1 h4 (by rw [List.length_cons, hlen]) hgs]
    rfl
  obtain ⟨g', gs', rfl⟩ := List.exists_cons_of_length_pos (show 0 < gs.length by omega)
  have hg := pad_lt (hgs g List.mem_cons_self)
  have hlower : ((pad g).map hexChar).map Char.toLower = (pad g).map hexChar :=
    (toLower_of_hexDigits (hexDigits_map_hexChar hg)).1
  have htext : spell ds (g :: g' :: gs') = ds.map hexChar ++ ':' :: ((pad g).map hexChar ++
      ':' :: [':'].intercalate ((g' :: gs').map fun g => (pad g).map hexChar)) := by
    simp only [spell, List.map_cons, List.intercalate_cons_cons, List.append_assoc,
      List.singleton_append]
  have hstart : ∀ r, startsWith (toLowerCase ((pad g).map hexChar ++ ':' :: r)) "ff9b:" =
      ([15, 15, 9, 11] == pad g) := fun r => by
    have happend : toLowerCase ((pad g).map hexChar ++ ':' :: r) =
        (pad g).map hexChar ++ ':' :: toLowerCase r := by
      rw [toLowerCase, List.map_append, hlower]
      rfl
    have hff9b : "ff9b:".toList = [15, 15, 9, 11].map hexChar ++ [':'] := by decide
    rw [startsWith, happend, hff9b, isPrefixOf_word (by decide) hg, List.isPrefixOf_nil_left,
      Bool.and_true]
  rw [htext] at hv6 ⊢
  rw [guard_word (hexDigits_map_hexChar hds) (List.ne_nil_of_length_pos h1) hv6, hstart]

theorem octet_toDigits {n : ℕ} (h : n < 256) : octet (Nat.toDigits 10 n) = some n := by
  have hall : ∀ n : Fin 256, octet (Nat.toDigits 10 n) = some n.val := by decide +kernel
  exact hall ⟨n, h⟩

/-- The guard looks at the IPv4 address that a text ends with. -/
theorem guard_dotted {a b c d : ℕ} (ha : a < 256) (hb : b < 256) (hc : c < 256) (hd : d < 256) :
    ipv6 (dotted [a, b, c, d]) = some ([0, 0, 0, 0, 0, 0xffff] ++ joinOctets [a, b, c, d]) ∧
      isPrivateOrLoopbackAddress (dotted [a, b, c, d]) = isPrivateIpv4 a b := by
  have hv4 := ipv4_intercalate (octet_toDigits ha) (octet_toDigits hb) (octet_toDigits hc)
    (octet_toDigits hd)
  have hv6 : ipv6 (dotted [a, b, c, d]) = _ :=
    ipv6_mapped (w := ['f', 'f', 'f', 'f']) (by decide) hv4
  refine ⟨hv6, ?_⟩
  have hnormal : normalizeToIpv4 (dotted [a, b, c, d]) =
      some (['.'].intercalate ([a, b, c, d].map (Nat.toDigits 10))) := by
    have hisv6 : isIPv6 (dotted [a, b, c, d]) = true := by rw [isIPv6, hv6]; rfl
    have hstart : startsWith (toLowerCase (dotted [a, b, c, d])) "::ffff:" = true := rfl
    have hisv4 : isIPv4 ((dotted [a, b, c, d]).drop 7) = true := by
      rw [isIPv4, show (dotted [a, b, c, d]).drop 7 =
        ['.'].intercalate ([a, b, c, d].map (Nat.toDigits 10)) from rfl]
      exact Option.isSome_iff_exists.2 ⟨_, hv4⟩
    have hcolon : ':' ∈ dotted [a, b, c, d] := List.mem_append_left _ (by decide)
    rw [normalizeToIpv4, isIPv4_of_colon hcolon, hisv6, hstart]
    simp only [hisv4, Bool.not_true, Bool.false_eq_true, ↓reduceIte]
    rfl
  exact guard_mapped hnormal hv4

/-! ## Which addresses are classified right -/

/-- The texts of eight words of an address, by the digits of the first. -/
theorem hasText_spell (a : Ipv6) {ds : List ℕ} (hds : ∀ d ∈ ds, d < 16) (h1 : 1 ≤ ds.length)
    (h4 : ds.length ≤ 4) (hvalue : hexValue ds = a.groups.getD 0 0) :
    IpAddress.HasText (.v6 a) (spell ds a.groups.tail) ∧
      isPrivateOrLoopbackAddress (spell ds a.groups.tail) =
        ([15, 12].isPrefixOf ds || [15, 13].isPrefixOf ds || [15, 14, 8, 0] == ds
          || ([6, 4] == ds && [15, 15, 9, 11] == pad (a.groups.getD 1 0))
          || [2, 0, 0, 2] == ds) := by
  obtain ⟨groups, hlen, hlt⟩ := a
  obtain ⟨g, gs, rfl⟩ := List.exists_cons_of_length_pos (show 0 < groups.length by omega)
  rw [List.length_cons] at hlen
  obtain ⟨g', gs, rfl⟩ := List.exists_cons_of_length_pos (show 0 < gs.length by omega)
  rw [List.length_cons] at hlen
  have hgs := (List.forall_mem_cons.1 hlt).2
  refine ⟨?_, guard_spell hds h1 h4 (by omega) hgs⟩
  have htext := ipv6_spell hds h1 h4
    (show (g' :: gs).length = 7 by rw [List.length_cons]; omega) hgs
  rw [hvalue] at htext
  exact htext

theorem group_lt (a : Ipv6) : a.groups.getD 0 0 < 65536 := by
  obtain ⟨groups, hlen, hlt⟩ := a
  obtain ⟨g, gs, rfl⟩ := List.exists_cons_of_length_pos (show 0 < groups.length by omega)
  exact hlt g List.mem_cons_self

/-- With its first group in four digits, the guard says no to an address, unless that group is
    unique local, `fe80`, or the one of 6to4. -/
theorem exists_padded (a : Ipv6) :
    ∃ t, IpAddress.HasText (.v6 a) t ∧ (isPrivateOrLoopbackAddress t = true →
      a.groups.getD 0 0 / 512 = 0xfc00 / 512 ∨ a.groups.getD 0 0 = 0xfe80 ∨
        a.groups.getD 0 0 = 0x2002) := by
  have hlt := group_lt a
  obtain ⟨htext, hguard⟩ := hasText_spell a (pad_lt hlt) (by simp [pad]) (by simp [pad])
    (hexValue_pad _)
  refine ⟨_, htext, ?_⟩
  rw [hguard]
  generalize a.groups.getD 0 0 = g at hlt
  simp only [pad, Bool.or_eq_true, Bool.and_eq_true, beq_iff_eq, List.isPrefixOf_iff_prefix,
    List.cons.injEq, List.cons_prefix_cons, List.nil_prefix, and_true, reduceCtorEq, and_false,
    false_and, or_false]
  omega

/-- A first group of two or three digits that start with `fc` or `fd` has a text on which the
    guard says yes, as has one of NAT64. -/
theorem exists_short (a : Ipv6) (h : (a.groups.getD 0 0 = 0xfc ∨ a.groups.getD 0 0 = 0xfd ∨
      a.groups.getD 0 0 / 16 = 0xfc ∨ a.groups.getD 0 0 / 16 = 0xfd) ∨
      a.groups.getD 0 0 = 0x64 ∧ a.groups.getD 1 0 = 0xff9b) :
    ∃ t, IpAddress.HasText (.v6 a) t ∧ isPrivateOrLoopbackAddress t = true := by
  have hspell : ∀ ds : List ℕ, (∀ d ∈ ds, d < 16) → 1 ≤ ds.length → ds.length ≤ 4 →
      hexValue ds = a.groups.getD 0 0 → ([15, 12].isPrefixOf ds || [15, 13].isPrefixOf ds ||
        ([6, 4] == ds && [15, 15, 9, 11] == pad (a.groups.getD 1 0))) = true →
      ∃ t, IpAddress.HasText (.v6 a) t ∧ isPrivateOrLoopbackAddress t = true :=
    fun ds hds h1 h4 hvalue hyes => by
      obtain ⟨htext, hguard⟩ := hasText_spell a hds h1 h4 hvalue
      refine ⟨_, htext, hguard.trans ?_⟩
      simp only [Bool.or_eq_true] at hyes ⊢
      tauto
  rcases h with (h | h | h | h) | ⟨h, h'⟩
  · exact hspell [15, 12] (by decide) (by decide) (by decide) (by rw [h]; rfl) rfl
  · exact hspell [15, 13] (by decide) (by decide) (by decide) (by rw [h]; rfl) rfl
  · refine hspell [15, 12, a.groups.getD 0 0 % 16] ?_ (by simp) (by simp) ?_ rfl
    · simp only [List.forall_mem_cons]
      exact ⟨by decide, by decide, by omega, fun _ h => absurd h List.not_mem_nil⟩
    · simp only [hexValue, List.foldl_cons, List.foldl_nil]
      omega
  · refine hspell [15, 13, a.groups.getD 0 0 % 16] ?_ (by simp) (by simp) ?_ rfl
    · simp only [List.forall_mem_cons]
      exact ⟨by decide, by decide, by omega, fun _ h => absurd h List.not_mem_nil⟩
    · simp only [hexValue, List.foldl_cons, List.foldl_nil]
      omega
  · exact hspell [6, 4] (by decide) (by decide) (by decide) (by rw [h]; rfl) (by rw [h']; decide)

/-- An IPv4-mapped address ends with the octets that it is mapped from. -/
theorem mappedFrom_eq_some {a : Ipv6} {os : List ℕ} (h : mappedFrom a.groups = some os) :
    ∃ x y, a.groups = [0, 0, 0, 0, 0, 0xffff, x, y] ∧
      os = [x / 256, x % 256, y / 256, y % 256] ∧ x < 65536 ∧ y < 65536 := by
  obtain ⟨groups, hlen, hlt⟩ := a
  simp only [mappedFrom] at h
  split at h
  next htake =>
    have hsplit := List.take_append_drop 6 groups
    rw [htake] at hsplit
    have hdrop : (groups.drop 6).length = 2 := by rw [List.length_drop, hlen]
    obtain ⟨x, y, hxy⟩ := List.length_eq_two.1 hdrop
    rw [hxy] at h hsplit
    subst hsplit
    refine ⟨x, y, rfl, (Option.some.inj h).symm, hlt x (by simp), hlt y (by simp)⟩
  next => exact absurd h (by simp)

/-- An address that is misspelt has two texts on which the guard differs, or it is internal and
    has a text on which the guard says no. -/
theorem not_classified {a : Ipv6} (h : misspelt a.groups = true) :
    ¬ (IpAddress.v6 a).Classified := by
  intro hclassified
  obtain ⟨t, ht, hno⟩ := exists_padded a
  have hyes : ∀ t', IpAddress.HasText (.v6 a) t' → isPrivateOrLoopbackAddress t' = true →
      isPrivateOrLoopbackAddress t = true := fun t' ht' h' =>
    (hclassified.agree t t' ht ht').trans h'
  simp only [misspelt, Bool.or_eq_true, Bool.and_eq_true, decide_eq_true_eq] at h
  rcases h with ((((h | h) | h) | h) | h) | h
  · have hinternal : (IpAddress.v6 a).internal = true := by
      simp [IpAddress.internal, internalIpv6, h]
    have := hno (hclassified.internal hinternal t ht)
    simp [h] at this
  · have hinternal : (IpAddress.v6 a).internal = true := by
      simp [IpAddress.internal, internalIpv6, h]
    have := hno (hclassified.internal hinternal t ht)
    simp [h] at this
  · obtain ⟨os, hos, hprivate⟩ := (Option.any_eq_true _ _).1 h
    obtain ⟨x, y, hgroups, rfl, hx, hy⟩ := mappedFrom_eq_some hos
    obtain ⟨htext, hguard⟩ := guard_dotted (a := x / 256) (b := x % 256) (c := y / 256)
      (d := y % 256) (by omega) (by omega) (by omega) (by omega)
    have hdotted : IpAddress.HasText (.v6 a) (dotted [x / 256, x % 256, y / 256, y % 256]) := by
      rw [IpAddress.HasText, htext, hgroups]
      simp only [joinOctets, List.cons_append, List.nil_append]
      rw [Nat.div_add_mod, Nat.div_add_mod]
    have := hno (hyes _ hdotted (hguard.trans hprivate))
    rw [hgroups] at this
    simp at this
  · have hinternal : (IpAddress.v6 a).internal = true := by
      have hlocal : a.groups.getD 0 0 / 64 = 0xfe80 / 64 := by omega
      simp only [IpAddress.internal, internalIpv6, hlocal, decide_true, Bool.or_true,
        Bool.true_or]
    have := hno (hclassified.internal hinternal t ht)
    omega
  · obtain ⟨t', ht', h'⟩ := exists_short a (.inl (by omega))
    have := hno (hyes t' ht' h')
    omega
  · obtain ⟨t', ht', h'⟩ := exists_short a (.inr h)
    have := hno (hyes t' ht' h')
    omega

/-- The guard classifies an address right, in each of its texts, exactly if the address is not
    misspelt. -/
theorem classified_iff (a : IpAddress) : a.Classified ↔ a.misspelt = false := by
  refine ⟨fun h => ?_, classified_of_spelt⟩
  cases a with
  | v4 a => rfl
  | v6 a =>
    rw [Bool.eq_false_iff]
    exact fun hmisspelt => not_classified hmisspelt h

/-- What `new URL` writes for `[::ffff:127.0.0.1]`, and a link-local address: the guard lets
    both through. -/
theorem mapped_loopback_passes :
    ipv6 "::ffff:7f00:1".toList = ipv6 "::ffff:127.0.0.1".toList ∧
      isPrivateOrLoopbackAddress "::ffff:7f00:1".toList = false ∧
      isPrivateOrLoopbackAddress "::ffff:127.0.0.1".toList = true ∧
      ipv6 "fe90::1".toList = some [0xfe90, 0, 0, 0, 0, 0, 0, 1] ∧
      internalIpv6 [0xfe90, 0, 0, 0, 0, 0, 0, 1] = true ∧
      isPrivateOrLoopbackAddress "fe90::1".toList = false := by
  decide +kernel

/-! ## The callers -/

/-- What is pinned passes the guard, as all that was found. -/
theorem pinned_mem {results : List (List Char)} {pinned : Pinned}
    (h : assertHostnameSafeForFetch results = .ok pinned) :
    pinned.address ∈ results ∧ ∀ a ∈ results, isPrivateOrLoopbackAddress a = false := by
  cases results with
  | nil => cases h
  | cons first rest =>
    rw [assertHostnameSafeForFetch] at h
    split_ifs at h with hany
    cases h
    refine ⟨?_, fun a ha => ?_⟩
    · cases hfind : (first :: rest).find? isIPv4 with
      | none => exact List.mem_cons_self
      | some a => exact List.mem_of_find?_eq_some hfind
    · exact Bool.eq_false_iff.2 fun hprivate => hany (List.any_eq_true.2 ⟨a, ha, hprivate⟩)

/-- A fetch connects to no internal address, unless it is misspelt. -/
theorem pinned_not_internal {results : List (List Char)} {pinned : Pinned} {a : IpAddress}
    (h : assertHostnameSafeForFetch results = .ok pinned) (ha : a.HasText pinned.address)
    (hspelt : a.misspelt = false) : a.internal = false := by
  obtain ⟨hmem, hguard⟩ := pinned_mem h
  rw [Bool.eq_false_iff]
  intro hinternal
  have hprivate := (classified_of_spelt hspelt).internal hinternal _ ha
  exact absurd ((hguard _ hmem).symm.trans hprivate) Bool.false_ne_true

end OneToThree.LinkPreview
