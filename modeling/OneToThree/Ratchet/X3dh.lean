import Mathlib.Data.Int.Notation
import Mathlib.Data.List.Forall2
import OneToThree.Ratchet.Kdf

/-!
# The X3DH handshake

The secret that a session is bootstrapped from is derived by HKDF from three or four
agreements and a text of both identities. What a side derives is settled by its view of the
handshake: five public keys, of which the last may be missing (`X3dhView`).

* Sides with one view derive one secret (`x3dh_secret_eq`).
* Sides that derive from one input have one view, or each takes the other for what it is
  itself (`view_of_input_eq`): the identities stand in the text in their own order, and not
  in that of the roles. Such sides exist (`mirrored_roles`).
-/

namespace OneToThree.Ratchet

structure IdentityKeyPair where
  signing : KeyPair
  exchange : KeyPair

structure SignedPreKey where
  id : ℕ
  publicKey : Bytes
  signature : Bytes

structure OneTimePreKey where
  id : ℕ
  publicKey : Bytes

structure PreKeyBundle where
  userId : String
  identitySigning : Bytes
  identityExchange : Bytes
  identityExchangeSignature : Bytes
  signedPreKey : SignedPreKey
  oneTimePreKey : Option OneTimePreKey

structure X3dhInitiator where
  initiatorIdentity : IdentityKeyPair
  ephemeral : KeyPair
  bundle : PreKeyBundle

structure X3dhResponder where
  responderIdentity : IdentityKeyPair
  signedPreKey : KeyPair
  oneTimePreKey : Option KeyPair
  initiatorIdentityPublic : Bytes
  initiatorEphemeralPublic : Bytes

inductive X3dhError
  | badSpkSignature
  /-- An agreement throws. -/
  | badKey
  deriving DecidableEq

/-- The text of an error; that of an agreement is the library's. -/
def X3dhError.message : X3dhError → Option String
  | .badSpkSignature => some "X3DH_BAD_SPK_SIGNATURE"
  | .badKey => none

/-! ## The inputs of the derivation -/

/-- The difference at the first byte that differs, and else of the lengths. -/
def compareBytes : Bytes → Bytes → ℤ
  | x :: xs, y :: ys => if x = y then compareBytes xs ys else (x.toNat : ℤ) - y.toNat
  | xs, ys => (xs.length : ℤ) - ys.length

/-- The text of both identities, in an order that does not depend on the roles. -/
def buildX3dhInfo (initiatorIdentityKey responderIdentityKey : Bytes) : Bytes :=
  let ordered := compareBytes initiatorIdentityKey responderIdentityKey ≤ 0
  let first := if ordered then initiatorIdentityKey else responderIdentityKey
  let second := if ordered then responderIdentityKey else initiatorIdentityKey
  utf8 "ForestMsg/x3dh/1:" ++ (first ++ second)

/-- What HKDF is called with. -/
structure HkdfInput where
  ikm : Bytes
  salt : Bytes
  info : Bytes
  length : ℕ
  deriving DecidableEq

def deriveInput (dhOutputs : List Bytes) (initiatorIdentityKey responderIdentityKey : Bytes)
    (ikm : Option Bytes) : HkdfInput :=
  { ikm := dhOutputs.flatten
    salt := ikm.getD (List.replicate 32 0)
    info := buildX3dhInfo initiatorIdentityKey responderIdentityKey
    length := 32 }

def identityExchangeSigningMessage (exchangePublicKey : Bytes) : Bytes :=
  utf8 "ForestMsg/x3dh/idex/1:" ++ exchangePublicKey

section
variable (P : Primitives) (verifyIdentitySignature : Bytes → Bytes → Bytes → Bool)

/-- The prekey and the exchange key are both signed by the identity. -/
def verifyBundleSignature (bundle : PreKeyBundle) : Bool :=
  verifyIdentitySignature bundle.identitySigning bundle.signedPreKey.publicKey
      bundle.signedPreKey.signature &&
    verifyIdentitySignature bundle.identitySigning
      (identityExchangeSigningMessage bundle.identityExchange) bundle.identityExchangeSignature

/-- The agreements of private with public keys; `none` where one throws. -/
def dhList (calls : List (Bytes × Bytes)) : Option (List Bytes) :=
  calls.mapM fun (ourPrivate, theirPublic) => dh P ourPrivate theirPublic

def X3dhInitiator.calls (args : X3dhInitiator) : List (Bytes × Bytes) :=
  [(args.initiatorIdentity.exchange.privateKey, args.bundle.signedPreKey.publicKey),
    (args.ephemeral.privateKey, args.bundle.identityExchange),
    (args.ephemeral.privateKey, args.bundle.signedPreKey.publicKey)] ++
  (args.bundle.oneTimePreKey.map fun k => (args.ephemeral.privateKey, k.publicKey)).toList

def X3dhResponder.calls (args : X3dhResponder) : List (Bytes × Bytes) :=
  [(args.signedPreKey.privateKey, args.initiatorIdentityPublic),
    (args.responderIdentity.exchange.privateKey, args.initiatorEphemeralPublic),
    (args.signedPreKey.privateKey, args.initiatorEphemeralPublic)] ++
  (args.oneTimePreKey.map fun k => (k.privateKey, args.initiatorEphemeralPublic)).toList

/-- What the initiator derives the secret from. -/
def x3dhInitiatorInput (args : X3dhInitiator) : Except X3dhError HkdfInput :=
  if !verifyBundleSignature verifyIdentitySignature args.bundle then .error .badSpkSignature
  else match dhList P args.calls with
    | none => .error .badKey
    | some dhOutputs => .ok (deriveInput dhOutputs args.initiatorIdentity.exchange.publicKey
        args.bundle.identityExchange none)

/-- What the responder derives the secret from. -/
def x3dhResponderInput (args : X3dhResponder) : Except X3dhError HkdfInput :=
  match dhList P args.calls with
  | none => .error .badKey
  | some dhOutputs => .ok (deriveInput dhOutputs args.initiatorIdentityPublic
      args.responderIdentity.exchange.publicKey none)

def HkdfInput.output (input : HkdfInput) : Bytes :=
  P.hkdf input.ikm input.salt input.info input.length

def x3dhInitiator (args : X3dhInitiator) : Except X3dhError Bytes :=
  (x3dhInitiatorInput P verifyIdentitySignature args).map (HkdfInput.output P)

def x3dhResponder (args : X3dhResponder) : Except X3dhError Bytes :=
  (x3dhResponderInput P args).map (HkdfInput.output P)

end

/-! ## Views of a handshake -/

/-- The public keys that a side takes a handshake to be of. -/
structure X3dhView where
  initiatorIdentity : Bytes
  responderIdentity : Bytes
  signedPreKey : Bytes
  ephemeral : Bytes
  oneTimePreKey : Option Bytes
  deriving DecidableEq

def X3dhInitiator.view (args : X3dhInitiator) : X3dhView where
  initiatorIdentity := args.initiatorIdentity.exchange.publicKey
  responderIdentity := args.bundle.identityExchange
  signedPreKey := args.bundle.signedPreKey.publicKey
  ephemeral := args.ephemeral.publicKey
  oneTimePreKey := args.bundle.oneTimePreKey.map OneTimePreKey.publicKey

def X3dhResponder.view (args : X3dhResponder) : X3dhView where
  initiatorIdentity := args.initiatorIdentityPublic
  responderIdentity := args.responderIdentity.exchange.publicKey
  signedPreKey := args.signedPreKey.publicKey
  ephemeral := args.initiatorEphemeralPublic
  oneTimePreKey := args.oneTimePreKey.map KeyPair.publicKey

/-- The views have the two identities in each other's role. -/
structure X3dhView.Mirrors (v w : X3dhView) : Prop where
  initiatorIdentity : v.initiatorIdentity = w.responderIdentity
  responderIdentity : v.responderIdentity = w.initiatorIdentity
  ne : v.initiatorIdentity ≠ v.responderIdentity
  oneTimePreKey : v.oneTimePreKey.isSome = w.oneTimePreKey.isSome

variable (P : Primitives)

/-- The side's own keys are pairs. -/
structure X3dhInitiator.Proper (args : X3dhInitiator) : Prop where
  identity : args.initiatorIdentity.exchange.Proper P
  ephemeral : args.ephemeral.Proper P

structure X3dhResponder.Proper (args : X3dhResponder) : Prop where
  identity : args.responderIdentity.exchange.Proper P
  signedPreKey : args.signedPreKey.Proper P
  oneTimePreKey : ∀ k ∈ args.oneTimePreKey, k.Proper P

/-- X25519 tells the public keys that it accepts apart; keys and agreements have 32 bytes. -/
structure Primitives.InjectiveDh (P : Primitives) : Prop where
  length_publicKey : ∀ a, (P.getPublicKey a).length = 32
  length_accepted : ∀ a k s, P.getSharedSecret a k = some s → k.length = 32
  length_secret : ∀ a k s, P.getSharedSecret a k = some s → s.length = 32
  inj : ∀ a k k' s, P.getSharedSecret a k = some s → P.getSharedSecret a k' = some s → k = k'

variable {P} {verifyIdentitySignature : Bytes → Bytes → Bytes → Bool}

theorem dhList_eq_some {calls : List (Bytes × Bytes)} {dhOutputs : List Bytes}
    (h : dhList P calls = some dhOutputs) :
    List.Forall₂ (fun call secret => dh P call.1 call.2 = some secret) calls dhOutputs := by
  induction calls generalizing dhOutputs with
  | nil =>
    obtain rfl := Option.some.inj h
    exact .nil
  | cons call calls ih =>
    rw [dhList, List.mapM_cons] at h
    obtain ⟨secret, hsecret, h⟩ := Option.bind_eq_some_iff.1 h
    obtain ⟨secrets, hsecrets, h⟩ := Option.bind_eq_some_iff.1 h
    obtain rfl := Option.some.inj h
    exact .cons hsecret (ih hsecrets)

theorem dhList_isSome {calls : List (Bytes × Bytes)}
    (h : ∀ call ∈ calls, ∃ secret, dh P call.1 call.2 = some secret) :
    ∃ dhOutputs, dhList P calls = some dhOutputs := by
  induction calls with
  | nil => exact ⟨[], rfl⟩
  | cons call calls ih =>
    obtain ⟨secret, hsecret⟩ := h call List.mem_cons_self
    obtain ⟨secrets, hsecrets⟩ := ih fun c hc => h c (List.mem_cons_of_mem _ hc)
    refine ⟨secret :: secrets, ?_⟩
    rw [dhList, List.mapM_cons]
    exact Option.bind_eq_some_iff.2 ⟨secret, hsecret,
      Option.bind_eq_some_iff.2 ⟨secrets, hsecrets, rfl⟩⟩

/-- Agreements one by one the same have the same list. -/
theorem dhList_congr {calls calls' : List (Bytes × Bytes)}
    (h : List.Forall₂ (fun c c' => dh P c.1 c.2 = dh P c'.1 c'.2) calls calls') :
    dhList P calls = dhList P calls' := by
  induction h with
  | nil => rfl
  | cons hcall _ ih =>
    rw [dhList, dhList] at ih
    rw [dhList, dhList, List.mapM_cons, List.mapM_cons, ih]
    exact congrArg (· >>= _) hcall

section
variable {init : X3dhInitiator} {resp : X3dhResponder}

/-- Sides with one view make the same agreements. -/
theorem dhList_eq_of_view (hP : P.Ideal) (hinit : init.Proper P) (hresp : resp.Proper P)
    (hview : init.view = resp.view) : dhList P init.calls = dhList P resp.calls := by
  obtain ⟨hi, hr, hspk, hek, hopk⟩ := X3dhView.mk.inj hview
  refine dhList_congr (List.rel_append ?_ ?_)
  · refine .cons ?_ (.cons ?_ (.cons ?_ .nil))
    · dsimp only
      rw [hspk, ← hi]
      exact dh_comm hP hinit.identity hresp.signedPreKey
    · dsimp only
      rw [hr, ← hek]
      exact dh_comm hP hinit.ephemeral hresp.identity
    · dsimp only
      rw [hspk, ← hek]
      exact dh_comm hP hinit.ephemeral hresp.signedPreKey
  · cases hk : init.bundle.oneTimePreKey with
    | none =>
      rw [hk] at hopk
      rw [Option.map_eq_none_iff.1 hopk.symm]
      exact .nil
    | some k =>
      rw [hk] at hopk
      obtain ⟨k', hk', hpub⟩ := Option.map_eq_some_iff.1 hopk.symm
      rw [hk']
      refine .cons ?_ .nil
      dsimp only
      rw [← hpub, ← hek]
      exact dh_comm hP hinit.ephemeral (hresp.oneTimePreKey k' hk')

/-- The agreements of a responder whose view of the initiator is that of a pair. -/
theorem dhList_responder (hP : P.Ideal) (hinit : init.Proper P) (hview : init.view = resp.view) :
    ∃ dhOutputs, dhList P resp.calls = some dhOutputs := by
  obtain ⟨hi, -, -, hek, -⟩ := X3dhView.mk.inj hview
  refine dhList_isSome fun call hcall => ?_
  have hpublic : call.2 = init.initiatorIdentity.exchange.publicKey ∨
      call.2 = init.ephemeral.publicKey := by
    rw [X3dhResponder.calls] at hcall
    rcases List.mem_append.1 hcall with hcall | hcall
    · simp only [List.mem_cons, List.not_mem_nil, or_false] at hcall
      rcases hcall with rfl | rfl | rfl
      · exact .inl hi.symm
      · exact .inr hek.symm
      · exact .inr hek.symm
    · obtain ⟨k, -, rfl⟩ := Option.map_eq_some_iff.1 (Option.mem_toList.1 hcall)
      exact .inr hek.symm
  rcases hpublic with h | h <;> rw [h]
  · exact dh_accepts hP _ hinit.identity
  · exact dh_accepts hP _ hinit.ephemeral

/-- Sides with one view derive one secret. -/
theorem x3dh_secret_eq (hP : P.Ideal) (hinit : init.Proper P) (hresp : resp.Proper P)
    (hsigned : verifyBundleSignature verifyIdentitySignature init.bundle)
    (hview : init.view = resp.view) :
    ∃ secret, x3dhInitiator P verifyIdentitySignature init = .ok secret ∧
      x3dhResponder P resp = .ok secret := by
  obtain ⟨dhOutputs, hlist⟩ := dhList_responder hP hinit hview
  have hlist' := (dhList_eq_of_view hP hinit hresp hview).trans hlist
  obtain ⟨hi, hr, -, -, -⟩ := X3dhView.mk.inj hview
  refine ⟨(deriveInput dhOutputs resp.initiatorIdentityPublic
    resp.responderIdentity.exchange.publicKey none).output P, ?_, ?_⟩
  · rw [x3dhInitiator, x3dhInitiatorInput, hsigned, hlist', hi, hr]
    rfl
  · rw [x3dhResponder, x3dhResponderInput, hlist]
    rfl

end

/-! ## What an input determines -/

/-- The text of two identities determines them, up to their order. -/
theorem buildX3dhInfo_inj {a b c d : Bytes} (ha : a.length = 32) (hb : b.length = 32)
    (hc : c.length = 32) (hd : d.length = 32) (h : buildX3dhInfo a b = buildX3dhInfo c d) :
    a = c ∧ b = d ∨ a = d ∧ b = c := by
  have hkeys := List.append_cancel_left h
  split_ifs at hkeys
  · exact .inl (List.append_inj hkeys (ha.trans hc.symm))
  · exact .inr (List.append_inj hkeys (ha.trans hd.symm))
  · exact .inr (List.append_inj hkeys (hb.trans hc.symm)).symm
  · exact .inl (List.append_inj hkeys (hb.trans hd.symm)).symm

/-- Agreements of 32 bytes are read back from their joined bytes. -/
theorem flatten_inj {ls ls' : List Bytes} (hlen : ∀ l ∈ ls, l.length = 32)
    (hlen' : ∀ l ∈ ls', l.length = 32) (h : ls.flatten = ls'.flatten) : ls = ls' := by
  have hmap : ls.map List.length = List.replicate ls.length 32 :=
    List.eq_replicate_iff.2 ⟨List.length_map _, by simpa using hlen⟩
  have hmap' : ls'.map List.length = List.replicate ls'.length 32 :=
    List.eq_replicate_iff.2 ⟨List.length_map _, by simpa using hlen'⟩
  have hcount : ls.length = ls'.length := by
    have hflat := congrArg List.length h
    rw [List.length_flatten, List.length_flatten, hmap, hmap', List.sum_replicate_nat,
      List.sum_replicate_nat] at hflat
    omega
  exact List.eq_iff_flatten_eq.2 ⟨h, by rw [hmap, hmap', hcount]⟩

theorem Primitives.InjectiveDh.length_secrets (hdh : P.InjectiveDh) {calls : List (Bytes × Bytes)}
    {secrets : List Bytes}
    (h : List.Forall₂ (fun call secret => dh P call.1 call.2 = some secret) calls secrets) :
    ∀ secret ∈ secrets, secret.length = 32 := by
  induction h with
  | nil => exact fun _ h => absurd h List.not_mem_nil
  | cons hcall _ ih =>
    intro secret hsecret
    rcases List.mem_cons.1 hsecret with rfl | hsecret
    · exact hdh.length_secret _ _ _ hcall
    · exact ih secret hsecret

/-- Two agreements that are one and the same, of which one side is. -/
theorem Primitives.InjectiveDh.eq_of_dh (hP : P.Ideal) (hdh : P.InjectiveDh) {k k' : KeyPair}
    (hk : k.Proper P) (hk' : k'.Proper P) {publicKey secret : Bytes}
    (h : dh P k.privateKey publicKey = some secret)
    (h' : dh P k'.privateKey k.publicKey = some secret) : publicKey = k'.publicKey :=
  hdh.inj _ _ _ _ h ((dh_comm hP hk hk').trans h')

section
variable {init : X3dhInitiator} {resp : X3dhResponder}

theorem x3dhInitiatorInput_eq_ok {input : HkdfInput}
    (h : x3dhInitiatorInput P verifyIdentitySignature init = .ok input) :
    ∃ secrets,
      List.Forall₂ (fun call secret => dh P call.1 call.2 = some secret) init.calls secrets ∧
      input = deriveInput secrets init.initiatorIdentity.exchange.publicKey
        init.bundle.identityExchange none := by
  rw [x3dhInitiatorInput] at h
  split at h
  · cases h
  · split at h
    · cases h
    next secrets hlist => exact ⟨secrets, dhList_eq_some hlist, (Except.ok.inj h).symm⟩

theorem x3dhResponderInput_eq_ok {input : HkdfInput} (h : x3dhResponderInput P resp = .ok input) :
    ∃ secrets,
      List.Forall₂ (fun call secret => dh P call.1 call.2 = some secret) resp.calls secrets ∧
      input = deriveInput secrets resp.initiatorIdentityPublic
        resp.responderIdentity.exchange.publicKey none := by
  rw [x3dhResponderInput] at h
  split at h
  · cases h
  next secrets hlist => exact ⟨secrets, dhList_eq_some hlist, (Except.ok.inj h).symm⟩

/-- The same agreements, of the same identities: the other keys are the same too, each by an
    agreement of it with a key that is already known to be. -/
theorem view_eq_of_secrets (hP : P.Ideal) (hdh : P.InjectiveDh) (hinit : init.Proper P)
    (hresp : resp.Proper P) {secrets : List Bytes}
    (hcalls : List.Forall₂ (fun call secret => dh P call.1 call.2 = some secret) init.calls secrets)
    (hcalls' : List.Forall₂ (fun call secret => dh P call.1 call.2 = some secret) resp.calls
      secrets)
    (hi : init.initiatorIdentity.exchange.publicKey = resp.initiatorIdentityPublic)
    (hr : init.bundle.identityExchange = resp.responderIdentity.exchange.publicKey) :
    init.view = resp.view := by
  obtain ⟨dh1, _, h1, hrest₁, rfl⟩ := List.forall₂_cons_left_iff.1 hcalls
  obtain ⟨dh2, _, h2, hrest₂, rfl⟩ := List.forall₂_cons_left_iff.1 hrest₁
  obtain ⟨dh3, _, -, hlast, rfl⟩ := List.forall₂_cons_left_iff.1 hrest₂
  obtain ⟨h1', hrest₁'⟩ := List.forall₂_cons.1 hcalls'
  obtain ⟨h2', hrest₂'⟩ := List.forall₂_cons.1 hrest₁'
  obtain ⟨-, hlast'⟩ := List.forall₂_cons.1 hrest₂'
  have hspk : init.bundle.signedPreKey.publicKey = resp.signedPreKey.publicKey := by
    rw [← hi] at h1'
    exact hdh.eq_of_dh hP hinit.identity hresp.signedPreKey h1 h1'
  have hek : resp.initiatorEphemeralPublic = init.ephemeral.publicKey := by
    rw [hr] at h2
    exact hdh.eq_of_dh hP hresp.identity hinit.ephemeral h2' h2
  have hopk : init.bundle.oneTimePreKey.map OneTimePreKey.publicKey =
      resp.oneTimePreKey.map KeyPair.publicKey := by
    cases hk : init.bundle.oneTimePreKey with
    | none =>
      rw [hk] at hlast
      cases hlast
      cases hk' : resp.oneTimePreKey with
      | none => rfl
      | some k' =>
        rw [hk'] at hlast'
        cases hlast'
    | some k =>
      rw [hk] at hlast
      obtain ⟨dh4, _, h4, -, rfl⟩ := List.forall₂_cons_left_iff.1 hlast
      cases hk' : resp.oneTimePreKey with
      | none =>
        rw [hk'] at hlast'
        cases hlast'
      | some k' =>
        rw [hk'] at hlast'
        obtain ⟨h4', -⟩ := List.forall₂_cons.1 hlast'
        rw [hek] at h4'
        exact congrArg some (hdh.eq_of_dh hP hinit.ephemeral (hresp.oneTimePreKey k' hk') h4 h4')
  rw [X3dhInitiator.view, X3dhResponder.view, hi, hr, hspk, hek, hopk]

/-- Whether a one-time prekey was used is told by the number of agreements. -/
theorem isSome_eq_of_length (h : init.calls.length = resp.calls.length) :
    init.view.oneTimePreKey.isSome = resp.view.oneTimePreKey.isSome := by
  cases hk : init.bundle.oneTimePreKey <;> cases hk' : resp.oneTimePreKey <;>
    simp_all [X3dhInitiator.calls, X3dhResponder.calls, X3dhInitiator.view, X3dhResponder.view]

/-- Sides that derive from one input have one view, or each takes the other for what it is
    itself. -/
theorem view_of_input_eq (hP : P.Ideal) (hdh : P.InjectiveDh) (hinit : init.Proper P)
    (hresp : resp.Proper P) {input : HkdfInput}
    (h : x3dhInitiatorInput P verifyIdentitySignature init = .ok input)
    (h' : x3dhResponderInput P resp = .ok input) :
    init.view = resp.view ∨ init.view.Mirrors resp.view := by
  obtain ⟨secrets, hcalls, rfl⟩ := x3dhInitiatorInput_eq_ok h
  obtain ⟨secrets', hcalls', heq⟩ := x3dhResponderInput_eq_ok h'
  obtain ⟨hikm, -, hinfo, -⟩ := HkdfInput.mk.inj heq
  obtain rfl := flatten_inj (hdh.length_secrets hcalls) (hdh.length_secrets hcalls') hikm
  -- Keys of 32 bytes: a side's own, and those that its agreements accept.
  have hown := hdh.length_publicKey init.initiatorIdentity.exchange.privateKey
  have hown' := hdh.length_publicKey resp.responderIdentity.exchange.privateKey
  rw [← hinit.identity] at hown
  rw [← hresp.identity] at hown'
  obtain ⟨dh1, rest, -, hrest, hsecrets⟩ := List.forall₂_cons_left_iff.1 hcalls
  obtain ⟨dh2, rest, h2, -, -⟩ := List.forall₂_cons_left_iff.1 hrest
  obtain ⟨dh1', rest', h1', -, -⟩ := List.forall₂_cons_left_iff.1 hcalls'
  rcases buildX3dhInfo_inj hown (hdh.length_accepted _ _ _ h2) (hdh.length_accepted _ _ _ h1')
    hown' hinfo with ⟨hi, hr⟩ | ⟨hi, hr⟩
  · exact .inl (view_eq_of_secrets hP hdh hinit hresp hcalls hcalls' hi hr)
  · by_cases hsame : init.initiatorIdentity.exchange.publicKey = init.bundle.identityExchange
    · exact .inl (view_eq_of_secrets hP hdh hinit hresp hcalls hcalls' (hsame.trans hr)
        (hsame.symm.trans hi))
    · exact .inr ⟨hi, hr, hsame,
        isSome_eq_of_length (hcalls.length_eq.trans hcalls'.length_eq.symm)⟩

/-- **X3DH.** Sides with one view derive one secret, where the initiator's bundle is signed.
    Sides whose views differ derive from different inputs, unless each takes the other for
    what it is itself, in the other's role. -/
theorem x3dh_agreement_and_binding (hP : P.Ideal) (hdh : P.InjectiveDh) (hinit : init.Proper P)
    (hresp : resp.Proper P) :
    (verifyBundleSignature verifyIdentitySignature init.bundle → init.view = resp.view →
      ∃ secret, x3dhInitiator P verifyIdentitySignature init = .ok secret ∧
        x3dhResponder P resp = .ok secret) ∧
    ∀ input input', x3dhInitiatorInput P verifyIdentitySignature init = .ok input →
      x3dhResponderInput P resp = .ok input' → init.view ≠ resp.view →
      ¬ init.view.Mirrors resp.view → input ≠ input' := by
  refine ⟨fun hsigned hview => x3dh_secret_eq hP hinit hresp hsigned hview, ?_⟩
  rintro input _ h h' hview hmirrors rfl
  rcases view_of_input_eq hP hdh hinit hresp h h' with heq | hmirror
  · exact hview heq
  · exact hmirrors hmirror

end

/-! ## Mirrored roles

Agreements that are sums, byte by byte, and signatures that repeat what they sign. -/

def sumPublicKey (a : Bytes) : Bytes := (a ++ List.replicate 32 0).take 32

def sumPrimitives : Primitives where
  getPublicKey := sumPublicKey
  getSharedSecret a k :=
    if k.length = 32 then some (List.zipWith (· + ·) (sumPublicKey a) k) else none
  hkdf ikm salt info n := (ikm ++ salt ++ info).take n
  hmac key message := message ++ key
  gcmEncrypt _ _ _ pt := pt
  gcmDecrypt _ _ _ ct := some ct

theorem length_sumPublicKey (a : Bytes) : (sumPublicKey a).length = 32 := by
  rw [sumPublicKey, List.length_take, List.length_append, List.length_replicate]
  omega

theorem zipWith_add_inj {a k k' : Bytes} (hk : k.length = a.length) (hk' : k'.length = a.length)
    (h : List.zipWith (· + ·) a k = List.zipWith (· + ·) a k') : k = k' := by
  induction a generalizing k k' with
  | nil => rw [List.length_eq_zero_iff.1 hk, List.length_eq_zero_iff.1 hk']
  | cons x a ih =>
    obtain ⟨y, k, rfl⟩ := List.exists_cons_of_length_eq_add_one hk
    obtain ⟨y', k', rfl⟩ := List.exists_cons_of_length_eq_add_one hk'
    obtain ⟨hhead, htail⟩ := List.cons.inj h
    rw [ih (Nat.succ.inj hk) (Nat.succ.inj hk') htail, (UInt8.add_right_inj x).1 hhead]

theorem sumPrimitives_ideal : sumPrimitives.Ideal where
  dh_accepts _ b := ⟨_, if_pos (length_sumPublicKey b)⟩
  dh_comm a b := by
    simp only [sumPrimitives, if_pos (length_sumPublicKey _)]
    exact congrArg some (List.zipWith_comm_of_comm (fun x y => UInt8.add_comm x y) ..)
  decrypt_encrypt _ _ _ _ := rfl

theorem sumPrimitives_injectiveDh : sumPrimitives.InjectiveDh := by
  have haccepted : ∀ a k s, sumPrimitives.getSharedSecret a k = some s →
      k.length = 32 ∧ List.zipWith (· + ·) (sumPublicKey a) k = s := by
    intro a k s h
    simp only [sumPrimitives] at h
    split at h
    next hk => exact ⟨hk, Option.some.inj h⟩
    next => cases h
  refine ⟨length_sumPublicKey, fun a k s h => (haccepted a k s h).1, ?_, ?_⟩
  · intro a k s h
    obtain ⟨hk, rfl⟩ := haccepted a k s h
    rw [List.length_zipWith, length_sumPublicKey, hk, Nat.min_self]
  · intro a k k' s h h'
    obtain ⟨hk, hs⟩ := haccepted a k s h
    obtain ⟨hk', hs'⟩ := haccepted a k' s h'
    exact zipWith_add_inj (hk.trans (length_sumPublicKey a).symm)
      (hk'.trans (length_sumPublicKey a).symm) (hs.trans hs'.symm)

def sumPair (n : UInt8) : KeyPair := ⟨List.replicate 32 n, List.replicate 32 n⟩

theorem sumPair_proper (n : UInt8) : (sumPair n).Proper sumPrimitives :=
  (List.take_left' (List.length_replicate ..)).symm

def repeats (publicSigning message signature : Bytes) : Bool := signature = publicSigning ++ message

/-- The prekeys of the identity `n`, whose signing key is `[n]`. -/
def sumBundle (n spk : UInt8) (opk : Option UInt8) : PreKeyBundle where
  userId := "bob"
  identitySigning := [n]
  identityExchange := (sumPair n).publicKey
  identityExchangeSignature := [n] ++ identityExchangeSigningMessage (sumPair n).publicKey
  signedPreKey := ⟨1, (sumPair spk).publicKey, [n] ++ (sumPair spk).publicKey⟩
  oneTimePreKey := opk.map fun n => ⟨2, (sumPair n).publicKey⟩

def sumInitiator (identity ephemeral peer spk : UInt8) (opk : Option UInt8) : X3dhInitiator :=
  ⟨⟨sumPair identity, sumPair identity⟩, sumPair ephemeral, sumBundle peer spk opk⟩

def sumResponder (identity spk : UInt8) (opk : Option UInt8) (peer ephemeral : UInt8) :
    X3dhResponder :=
  ⟨⟨sumPair identity, sumPair identity⟩, sumPair spk, opk.map sumPair, (sumPair peer).publicKey,
    (sumPair ephemeral).publicKey⟩

theorem sumInitiator_proper (identity ephemeral peer spk : UInt8) (opk : Option UInt8) :
    (sumInitiator identity ephemeral peer spk opk).Proper sumPrimitives :=
  ⟨sumPair_proper identity, sumPair_proper ephemeral⟩

theorem sumResponder_proper (identity spk : UInt8) (opk : Option UInt8) (peer ephemeral : UInt8) :
    (sumResponder identity spk opk peer ephemeral).Proper sumPrimitives where
  identity := sumPair_proper identity
  signedPreKey := sumPair_proper spk
  oneTimePreKey k hk := by
    obtain ⟨n, -, rfl⟩ := Option.map_eq_some_iff.1 hk
    exact sumPair_proper n

/-- Alice at 1 and Bob at 2, with the prekey 3, the one-time prekey 4 and the ephemeral 5. -/
theorem x3dh_agreement_and_binding_sum :
    (∃ secret, x3dhInitiator sumPrimitives repeats (sumInitiator 1 5 2 3 (some 4)) = .ok secret ∧
      x3dhResponder sumPrimitives (sumResponder 2 3 (some 4) 1 5) = .ok secret) ∧
    ∀ input input',
      x3dhInitiatorInput sumPrimitives repeats (sumInitiator 1 5 2 3 (some 4)) = .ok input →
      x3dhResponderInput sumPrimitives (sumResponder 2 3 none 1 5) = .ok input' →
      input ≠ input' :=
  ⟨(x3dh_agreement_and_binding sumPrimitives_ideal sumPrimitives_injectiveDh
      (sumInitiator_proper ..) (sumResponder_proper ..)).1 (by decide +kernel) (by decide +kernel),
    fun input input' h h' =>
      (x3dh_agreement_and_binding sumPrimitives_ideal sumPrimitives_injectiveDh
        (sumInitiator_proper ..) (sumResponder_proper ..)).2 input input' h h'
        (by decide +kernel) fun hmirrors => absurd hmirrors.initiatorIdentity (by decide +kernel)⟩

/-- A side that is at 1 in either role, and takes the peer in the other role for the identity 2:
    the one uses its identity as the ephemeral key for a prekey that is the peer's identity,
    and the other uses it as its prekey. -/
theorem mirrored_roles :
    sumPrimitives.Ideal ∧ sumPrimitives.InjectiveDh ∧
      (sumInitiator 1 1 2 2 none).Proper sumPrimitives ∧
      (sumResponder 1 1 none 2 2).Proper sumPrimitives ∧
      verifyBundleSignature repeats (sumInitiator 1 1 2 2 none).bundle ∧
      (sumInitiator 1 1 2 2 none).view ≠ (sumResponder 1 1 none 2 2).view ∧
      ∃ input, x3dhInitiatorInput sumPrimitives repeats (sumInitiator 1 1 2 2 none) = .ok input ∧
        x3dhResponderInput sumPrimitives (sumResponder 1 1 none 2 2) = .ok input := by
  have hsigned : verifyBundleSignature repeats (sumInitiator 1 1 2 2 none).bundle = true := by
    decide +kernel
  refine ⟨sumPrimitives_ideal, sumPrimitives_injectiveDh, sumInitiator_proper ..,
    sumResponder_proper .., hsigned, by decide +kernel, ?_⟩
  have hinfo : buildX3dhInfo (sumPair 1).publicKey (sumPair 2).publicKey =
      buildX3dhInfo (sumPair 2).publicKey (sumPair 1).publicKey := by decide +kernel
  refine ⟨deriveInput (List.replicate 3 (List.replicate 32 3)) (sumPair 1).publicKey
    (sumPair 2).publicKey none, ?_, ?_⟩
  · rw [x3dhInitiatorInput, hsigned]
    rfl
  · rw [deriveInput, hinfo]
    rfl

end OneToThree.Ratchet
