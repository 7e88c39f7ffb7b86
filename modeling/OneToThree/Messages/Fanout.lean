import OneToThree.Lib.TextBytes
import OneToThree.Trust.PinnedKey

/-!
# The fan-out

A message is encrypted for each device on its own, under a secret shared with the key of the device.
A worker does this where there is one and it has made any slot, and the main thread otherwise. Both
derive the same secrets, but each imports keys in a way of its own: the worker as keys on P-256 that
are not exported again, the main thread on the curve that the key names, to be exported.

* `WebCrypto`: the points of the curves, and an ideal encryption.
* `agree_iff`: the two paths agree, and their slots open to the text, exactly if no device that the
  worker takes has a key marked as not to be exported, and the text begins with no byte order mark.
-/

namespace OneToThree.Fanout

open JsText JsonUnits TextBytes
open PinnedKey (EcdhCurve namedCurveFromJwk isNull)

/-! ## Keys -/

def curveName : EcdhCurve → JsText
  | .p256 => ascii "P-256"
  | .p384 => ascii "P-384"

/-- The members of a key as the browser reads them. -/
structure JsonWebKey where
  kty : Option JsText
  key_ops : Option (List JsText)
  ext : Option Bool
  crv : Option JsText
  x : Option JsText
  y : Option JsText
  d : Option JsText

section
variable {N : Type} [Number N]

/-- What the browser takes for a record. -/
def isRecord : Value N → Bool
  | .null => true
  | .arr _ => true
  | .obj _ => true
  | _ => false

def elems? : Value N → Option (List (Value N))
  | .arr xs => some xs
  | _ => none

/-- The record that a value is converted to. Where there are operations or further primes, they
    are lists. -/
def toJsonWebKey (jwk : Value N) : Option JsonWebKey :=
  if isRecord jwk ∧ (jwk.get? "key_ops").all (fun x => (elems? x).isSome) ∧
      (jwk.get? "oth").all (fun x => (elems? x).any (·.all isRecord)) then
    some {
      kty := (jwk.get? "kty").map Value.toText
      key_ops := ((jwk.get? "key_ops").bind elems?).map (·.map Value.toText)
      ext := (jwk.get? "ext").map Value.isTruthy
      crv := (jwk.get? "crv").map Value.toText
      x := (jwk.get? "x").map Value.toText
      y := (jwk.get? "y").map Value.toText
      d := (jwk.get? "d").map Value.toText }
  else none

end

/-- The points `P` of the curves with their private keys `K`, the shared secrets `S`, and the keys
    `A` of the encryption, which is ideal. -/
structure WebCrypto (P K S A : Type) where
  /-- The point of two coordinates, if it is on the curve. -/
  point : EcdhCurve → JsText → JsText → Option P
  curve : K → EcdhCurve
  publicPoint : K → P
  exists_private : ∀ c x y p, point c x y = some p → ∃ k, curve k = c ∧ publicPoint k = p
  ecdh : K → P → S
  ecdh_comm : ∀ k k', curve k = curve k' → ecdh k (publicPoint k') = ecdh k' (publicPoint k)
  hkdf : S → A
  encrypt : A → Bytes → Bytes → Bytes
  decrypt : A → Bytes → Bytes → Option Bytes
  decrypt_encrypt : ∀ k iv bytes, decrypt k iv (encrypt k iv bytes) = some bytes
  encrypt_ne_nil : ∀ k iv bytes, encrypt k iv bytes ≠ []
  /-- What a decoder makes of bytes that are no UTF-8. -/
  replaced : Bytes → String

structure PublicKey (P : Type) where
  curve : EcdhCurve
  point : P

variable {P K S A : Type} (W : WebCrypto P K S A)

namespace WebCrypto

/-- A public key has no usages of its own. What is not to be exported is not imported so that it
    can be. -/
def importKey (extractable : Bool) (namedCurve : EcdhCurve) (jwk : JsonWebKey) :
    Option (PublicKey P) :=
  if jwk.kty = some (ascii "EC") ∧ jwk.key_ops.all (fun ops => ops.Nodup) ∧
      ¬(jwk.ext = some false ∧ extractable) ∧ jwk.crv = some (curveName namedCurve) ∧
      jwk.d = none then
    jwk.x.bind fun x => jwk.y.bind fun y => (W.point namedCurve x y).map (⟨namedCurve, ·⟩)
  else none

def publicKey (k : K) : PublicKey P := ⟨W.curve k, W.publicPoint k⟩

end WebCrypto

section
variable (N : Type) [Number N]

/-- The import of the worker. -/
def importP256PublicKey (jwkString : JsText) : Option (PublicKey P) :=
  (parseOwn (N := N) jwkString).bind fun jwk => (toJsonWebKey jwk).bind (W.importKey false .p256)

/-- The import of the main thread. -/
def importEcdhPublicKey (jwkString : JsText) : Option (PublicKey P) :=
  (parseOwn (N := N) jwkString).bind fun jwk =>
    if isNull jwk then none
    else (toJsonWebKey jwk).bind (W.importKey true (namedCurveFromJwk jwk))

end

def deriveSharedSecretHkdf (privateKey : K) (pub : PublicKey P) : Option A :=
  if pub.curve = W.curve privateKey then some (W.hkdf (W.ecdh privateKey pub.point)) else none

/-! ## Slots -/

structure DeviceSlot where
  device_id : JsText
  ecdh_public_key : JsText

structure FanoutSlot where
  device_id : JsText
  ciphertext : JsText
  iv : JsText

structure FanoutBuildResult where
  slots : List FanoutSlot
  failedDeviceIds : List JsText
  attemptedDeviceIds : List JsText

/-- The slot of a device, with the IV that is drawn for it. -/
def encryptSlot (importKey : JsText → Option (PublicKey P)) (senderPrivateKey : K)
    (draws : JsText → Bytes) (plaintext : String) (dev : DeviceSlot) : Option FanoutSlot :=
  (importKey dev.ecdh_public_key).bind fun peerPub =>
    (deriveSharedSecretHkdf W senderPrivateKey peerPub).map fun sharedKey =>
      let iv := draws dev.device_id
      { device_id := dev.device_id
        ciphertext := toB64 (W.encrypt sharedKey iv (encodeText plaintext))
        iv := ascii "v2:" ++ toB64 iv }

section
variable (N : Type) [Number N] (senderPrivateKey : K) (draws : JsText → Bytes)
  (devices : List DeviceSlot) (plaintext : String)

/-- The worker's slots, and the devices that have none. -/
def handleFanoutEncrypt : List FanoutSlot × List JsText :=
  let slot := encryptSlot W (importP256PublicKey W N) senderPrivateKey draws plaintext
  (devices.filterMap slot,
    ((devices.filter fun dev => (slot dev).isNone).map (·.device_id)).filter (· ≠ []))

def encryptOnMain : Except String FanoutBuildResult :=
  let slot := encryptSlot W (importEcdhPublicKey W N) senderPrivateKey draws plaintext
  if devices.filterMap slot = [] ∧ devices ≠ [] then .error "FANOUT_ALL_SLOTS_FAILED"
  else .ok {
    slots := devices.filterMap slot
    failedDeviceIds := (devices.filter fun dev => (slot dev).isNone).map (·.device_id)
    attemptedDeviceIds := devices.map (·.device_id) }

/-- `workerRuns`: whether there is a worker, and it answers. -/
def encryptFanoutDetailed (workerRuns : Bool) : Except String FanoutBuildResult :=
  let workerResult := handleFanoutEncrypt W N senderPrivateKey draws devices plaintext
  if 2 ≤ devices.length ∧ workerRuns ∧ workerResult.1 ≠ [] then
    .ok {
      slots := workerResult.1
      failedDeviceIds := workerResult.2
      attemptedDeviceIds := devices.map (·.device_id) }
  else encryptOnMain W N senderPrivateKey draws devices plaintext

end

def decryptMessage (sharedKey : A) (ciphertext iv : JsText) : Option String :=
  (fromB64 ciphertext).bind fun ciphertext => (fromB64 iv).bind fun iv =>
    (W.decrypt sharedKey iv ciphertext).map (decodeText W.replaced)

def decryptFanoutSlot (N : Type) [Number N] (receiverPrivateKey : K)
    (senderEcdhPublicKeyJwk ciphertext iv : JsText) : Option String :=
  if senderEcdhPublicKeyJwk = [] ∨ ciphertext = [] ∨ iv = [] then none
  else (importEcdhPublicKey W N senderEcdhPublicKeyJwk).bind fun senderPub =>
    (deriveSharedSecretHkdf W receiverPrivateKey senderPub).bind fun sharedKey =>
      if (ascii "v2:").isPrefixOf iv then decryptMessage W sharedKey ciphertext (iv.drop 3)
      else decryptMessage W sharedKey ciphertext iv

/-! ## What the paths agree on -/

/-- The same devices have a slot, the same have none, and the errors are the same. -/
def SameOutcome : Except String FanoutBuildResult → Except String FanoutBuildResult → Prop
  | .error e, .error e' => e = e'
  | .ok r, .ok r' =>
    (∀ id, id ∈ r.slots.map (·.device_id) ↔ id ∈ r'.slots.map (·.device_id)) ∧
      ∀ id, id ∈ r.failedDeviceIds ↔ id ∈ r'.failedDeviceIds
  | _, _ => False

section
variable (N : Type) [Number N] (senderPrivateKey : K)

/-- The key that a text stands for, whether it is to be exported or not. -/
def publicKeyOf (jwkString : JsText) : Option (PublicKey P) :=
  (parseOwn (N := N) jwkString).bind fun jwk =>
    (toJsonWebKey jwk).bind (W.importKey false (namedCurveFromJwk jwk))

/-- Each slot is opened to the text by its device, under the sender's key. -/
def Opens (senderJwk : JsText) (devices : List DeviceSlot) (plaintext : String)
    (outcome : Except String FanoutBuildResult) : Prop :=
  ∀ result, outcome = .ok result → ∀ slot ∈ result.slots, ∀ dev ∈ devices,
    dev.device_id = slot.device_id → ∀ k,
      publicKeyOf W N dev.ecdh_public_key = some (W.publicKey k) →
        decryptFanoutSlot W N k senderJwk slot.ciphertext slot.iv = some plaintext

/-- The key is marked as not to be exported. -/
def isUnextractable (jwkString : JsText) : Bool :=
  ((parseOwn (N := N) jwkString).bind toJsonWebKey).any (·.ext = some false)

def takes (importKey : JsText → Option (PublicKey P)) (dev : DeviceSlot) : Bool :=
  (importKey dev.ecdh_public_key).any (·.curve = W.curve senderPrivateKey)

/-- The devices that the worker makes a slot for. -/
def workerTakes : DeviceSlot → Bool := takes W senderPrivateKey (importP256PublicKey W N)

def mainTakes : DeviceSlot → Bool := takes W senderPrivateKey (importEcdhPublicKey W N)

/-- If the worker makes a slot, then for keys that may be exported, and for all devices without an
    id. -/
def KeysAgree (devices : List DeviceSlot) : Prop :=
  2 ≤ devices.length → (∃ dev ∈ devices, workerTakes W N senderPrivateKey dev = true) →
    ∀ dev ∈ devices,
      (workerTakes W N senderPrivateKey dev = true →
        isUnextractable N dev.ecdh_public_key = false) ∧
      (dev.device_id = [] → workerTakes W N senderPrivateKey dev = true)

/-- If there is a slot, then of a text without a byte order mark. -/
def TextKept (devices : List DeviceSlot) (plaintext : String) : Prop :=
  (∃ dev ∈ devices, mainTakes W N senderPrivateKey dev = true ∨
    2 ≤ devices.length ∧ workerTakes W N senderPrivateKey dev = true) →
      plaintext.toList.head? ≠ some '\uFEFF'

end

/-! ## Imports -/

section
variable {W} {N : Type} [Number N]

theorem importKey_curve {extractable : Bool} {c : EcdhCurve} {jwk : JsonWebKey} {pub : PublicKey P}
    (h : W.importKey extractable c jwk = some pub) : pub.curve = c := by
  obtain ⟨-, h⟩ := Option.ite_none_right_eq_some.1 h
  obtain ⟨x, -, h⟩ := Option.bind_eq_some_iff.1 h
  obtain ⟨y, -, h⟩ := Option.bind_eq_some_iff.1 h
  obtain ⟨p, -, rfl⟩ := Option.map_eq_some_iff.1 h
  rfl

theorem importKey_crv {extractable : Bool} {c : EcdhCurve} {jwk : JsonWebKey} {pub : PublicKey P}
    (h : W.importKey extractable c jwk = some pub) : jwk.crv = some (curveName c) := by
  obtain ⟨⟨-, -, -, hcrv, -⟩, -⟩ := Option.ite_none_right_eq_some.1 h
  exact hcrv

theorem importKey_kty {extractable : Bool} {c : EcdhCurve} {jwk : JsonWebKey} {pub : PublicKey P}
    (h : W.importKey extractable c jwk = some pub) : jwk.kty = some (ascii "EC") := by
  obtain ⟨⟨hkty, -⟩, -⟩ := Option.ite_none_right_eq_some.1 h
  exact hkty

/-- A point that is imported is some private key's. -/
theorem exists_privateKey {extractable : Bool} {c : EcdhCurve} {jwk : JsonWebKey}
    {pub : PublicKey P} (h : W.importKey extractable c jwk = some pub) :
    ∃ k, W.publicKey k = pub := by
  obtain ⟨-, h⟩ := Option.ite_none_right_eq_some.1 h
  obtain ⟨x, -, h⟩ := Option.bind_eq_some_iff.1 h
  obtain ⟨y, -, h⟩ := Option.bind_eq_some_iff.1 h
  obtain ⟨p, hp, rfl⟩ := Option.map_eq_some_iff.1 h
  obtain ⟨k, rfl, rfl⟩ := W.exists_private c x y p hp
  exact ⟨k, rfl⟩

/-- To be exported, a key must not be marked. -/
theorem importKey_true (c : EcdhCurve) (jwk : JsonWebKey) : W.importKey true c jwk =
    if jwk.ext = some false then none else W.importKey false c jwk := by
  by_cases hext : jwk.ext = some false
  · simp [WebCrypto.importKey, hext]
  · simp [WebCrypto.importKey, hext]

/-- A key on P-256 names no other curve. -/
theorem namedCurveFromJwk_eq {jwk : Value N} {r : JsonWebKey} (hr : toJsonWebKey jwk = some r)
    (hcrv : r.crv = some (curveName .p256)) : namedCurveFromJwk jwk = .p256 := by
  obtain ⟨-, hr⟩ := Option.ite_none_right_eq_some.1 hr
  obtain rfl := Option.some.inj hr
  obtain ⟨x, hx, htext⟩ := Option.map_eq_some_iff.1 hcrv
  rw [namedCurveFromJwk, hx, if_neg]
  intro hother
  cases x with
  | str t =>
    rw [Value.toText] at htext
    rw [Option.bind_some, Value.text?, htext, Option.some.injEq] at hother
    exact absurd hother (by decide)
  | _ => exact absurd hother.symm (Option.some_ne_none _)

theorem isNull_eq_false {jwk : Value N} {r : JsonWebKey} {t : JsText}
    (hr : toJsonWebKey jwk = some r) (hkty : r.kty = some t) : isNull jwk = false := by
  obtain ⟨-, hr⟩ := Option.ite_none_right_eq_some.1 hr
  obtain rfl := Option.some.inj hr
  cases jwk with
  | null => exact absurd hkty.symm (Option.some_ne_none _)
  | _ => rfl

theorem importP256PublicKey_eq_some {t : JsText} {pub : PublicKey P} :
    importP256PublicKey W N t = some pub ↔
      publicKeyOf W N t = some pub ∧ pub.curve = .p256 := by
  rw [importP256PublicKey, publicKeyOf]
  cases hjwk : parseOwn (N := N) t with
  | none => simp
  | some jwk =>
    simp only [Option.bind_some]
    cases hr : toJsonWebKey jwk with
    | none => simp
    | some r =>
      simp only [Option.bind_some]
      constructor
      · intro h
        rw [namedCurveFromJwk_eq hr (importKey_crv h)]
        exact ⟨h, importKey_curve h⟩
      · rintro ⟨h, hcurve⟩
        have hnamed := (importKey_curve h).symm.trans hcurve
        rwa [hnamed] at h

theorem importEcdhPublicKey_eq_some {t : JsText} {pub : PublicKey P} :
    importEcdhPublicKey W N t = some pub ↔
      publicKeyOf W N t = some pub ∧ isUnextractable N t = false := by
  rw [importEcdhPublicKey, publicKeyOf, isUnextractable]
  cases hjwk : parseOwn (N := N) t with
  | none => simp
  | some jwk =>
    simp only [Option.bind_some]
    cases hr : toJsonWebKey jwk with
    | none => simp
    | some r =>
      simp only [Option.bind_some, Option.any_some, importKey_true, decide_eq_false_iff_not]
      constructor
      · intro h
        split_ifs at h with hnull hext
        exact ⟨h, hext⟩
      · rintro ⟨h, hext⟩
        rw [isNull_eq_false hr (importKey_kty h), if_neg hext]
        exact h

variable {sender : K}

theorem workerTakes_iff {dev : DeviceSlot} : workerTakes W N sender dev = true ↔
    ∃ pub, publicKeyOf W N dev.ecdh_public_key = some pub ∧ pub.curve = .p256 ∧
      pub.curve = W.curve sender := by
  simp only [workerTakes, takes, Option.any_eq_true, importP256PublicKey_eq_some,
    decide_eq_true_eq, and_assoc]

theorem mainTakes_iff {dev : DeviceSlot} : mainTakes W N sender dev = true ↔
    ∃ pub, publicKeyOf W N dev.ecdh_public_key = some pub ∧
      isUnextractable N dev.ecdh_public_key = false ∧ pub.curve = W.curve sender := by
  simp only [mainTakes, takes, Option.any_eq_true, importEcdhPublicKey_eq_some,
    decide_eq_true_eq, and_assoc]

theorem curve_of_workerTakes {dev : DeviceSlot} (h : workerTakes W N sender dev = true) :
    W.curve sender = .p256 := by
  obtain ⟨pub, -, hcurve, hsender⟩ := workerTakes_iff.1 h
  exact hsender.symm.trans hcurve

/-- For a sender on P-256, the main thread takes what the worker takes, less the marked keys. -/
theorem mainTakes_iff_workerTakes (hsender : W.curve sender = .p256) (dev : DeviceSlot) :
    mainTakes W N sender dev = true ↔
      workerTakes W N sender dev = true ∧ isUnextractable N dev.ecdh_public_key = false := by
  rw [mainTakes_iff, workerTakes_iff, hsender]
  constructor
  · rintro ⟨pub, hpub, hext, hcurve⟩
    exact ⟨⟨pub, hpub, hcurve, hcurve⟩, hext⟩
  · rintro ⟨⟨pub, hpub, hcurve, -⟩, hext⟩
    exact ⟨pub, hpub, hext, hcurve⟩

/-! ## Slots of devices -/

section
variable {importKey : JsText → Option (PublicKey P)} {draws : JsText → Bytes} {plaintext : String}
  {dev : DeviceSlot} {devices : List DeviceSlot} {slot : FanoutSlot}

variable (draws plaintext) in
theorem isSome_encryptSlot (dev : DeviceSlot) :
    (encryptSlot W importKey sender draws plaintext dev).isSome =
      takes W sender importKey dev := by
  rw [encryptSlot, takes]
  cases importKey dev.ecdh_public_key with
  | none => rfl
  | some pub =>
    rw [Option.bind_some, Option.isSome_map, deriveSharedSecretHkdf, Option.any_some]
    split_ifs with hcurve <;> simp [hcurve]

theorem encryptSlot_device_id (h : encryptSlot W importKey sender draws plaintext dev = some slot) :
    slot.device_id = dev.device_id := by
  obtain ⟨pub, -, h⟩ := Option.bind_eq_some_iff.1 h
  obtain ⟨key, -, rfl⟩ := Option.map_eq_some_iff.1 h
  rfl

theorem mem_slots {id : JsText} :
    id ∈ (devices.filterMap (encryptSlot W importKey sender draws plaintext)).map (·.device_id) ↔
      ∃ dev ∈ devices, dev.device_id = id ∧ takes W sender importKey dev = true := by
  simp only [List.mem_map, List.mem_filterMap]
  constructor
  · rintro ⟨slot, ⟨dev, hdev, hslot⟩, rfl⟩
    refine ⟨dev, hdev, (encryptSlot_device_id hslot).symm, ?_⟩
    rw [← isSome_encryptSlot draws plaintext, hslot]
    rfl
  · rintro ⟨dev, hdev, rfl, htakes⟩
    rw [← isSome_encryptSlot draws plaintext] at htakes
    obtain ⟨slot, hslot⟩ := Option.isSome_iff_exists.1 htakes
    exact ⟨slot, ⟨dev, hdev, hslot⟩, encryptSlot_device_id hslot⟩

theorem slots_eq_nil :
    devices.filterMap (encryptSlot W importKey sender draws plaintext) = [] ↔
      ∀ dev ∈ devices, takes W sender importKey dev = false := by
  simp only [List.filterMap_eq_nil_iff, ← Option.isNone_iff_eq_none, ← Option.not_isSome,
    isSome_encryptSlot, Bool.not_eq_true']

theorem mem_failed {id : JsText} :
    id ∈ (devices.filter fun dev =>
        (encryptSlot W importKey sender draws plaintext dev).isNone).map (·.device_id) ↔
      ∃ dev ∈ devices, dev.device_id = id ∧ takes W sender importKey dev = false := by
  simp only [List.mem_map, List.mem_filter, ← Option.not_isSome, isSome_encryptSlot,
    Bool.not_eq_true']
  constructor
  · rintro ⟨dev, ⟨hdev, htakes⟩, rfl⟩
    exact ⟨dev, hdev, rfl, htakes⟩
  · rintro ⟨dev, hdev, rfl, htakes⟩
    exact ⟨dev, ⟨hdev, htakes⟩, rfl⟩

/-- Both sides derive one secret, under which the text is sealed and opened. -/
theorem decrypt_encryptSlot {senderJwk : JsText} {k : K}
    (hsender : importEcdhPublicKey W N senderJwk = some (W.publicKey sender))
    (hkey : importKey dev.ecdh_public_key = some (W.publicKey k))
    (hslot : encryptSlot W importKey sender draws plaintext dev = some slot) :
    decryptFanoutSlot W N k senderJwk slot.ciphertext slot.iv = some (withoutMark plaintext) := by
  rw [encryptSlot, hkey, Option.bind_some] at hslot
  obtain ⟨key, hderive, rfl⟩ := Option.map_eq_some_iff.1 hslot
  obtain ⟨hcurve, hderive⟩ := Option.ite_none_right_eq_some.1 hderive
  obtain rfl := Option.some.inj hderive
  have hsame : (W.publicKey sender).curve = W.curve k := hcurve.symm
  have hshared : deriveSharedSecretHkdf W k (W.publicKey sender) =
      some (W.hkdf (W.ecdh sender (W.publicPoint k))) := by
    rw [deriveSharedSecretHkdf, if_pos hsame]
    exact congrArg (some ∘ W.hkdf) (W.ecdh_comm k sender hcurve)
  have hjwk : senderJwk ≠ [] := by
    rintro rfl
    exact absurd hsender.symm (Option.some_ne_none _)
  have hcipher := toB64_ne_nil (W.encrypt_ne_nil (W.hkdf (W.ecdh sender (W.publicPoint k)))
    (draws dev.device_id) (encodeText plaintext))
  rw [decryptFanoutSlot, if_neg (by simp [hjwk, WebCrypto.publicKey, hcipher, ascii]), hsender,
    Option.bind_some, hshared, Option.bind_some, if_pos (by simp [ascii])]
  have hdrop : (ascii "v2:" ++ toB64 (draws dev.device_id)).drop 3 =
      toB64 (draws dev.device_id) := by
    have hlen : (ascii "v2:").length = 3 := by decide
    rw [← hlen, List.drop_left]
  rw [hdrop, decryptMessage, WebCrypto.publicKey, fromB64_toB64, Option.bind_some, fromB64_toB64,
    Option.bind_some, W.decrypt_encrypt, Option.map_some, decodeText_encodeText]

end

/-! ## The two paths -/

section
variable {draws draws' : JsText → Bytes} {plaintext : String} {devices : List DeviceSlot}
  {senderJwk : JsText}

variable (draws plaintext) in
/-- The slots of an import open to the text exactly if there is none, or the text has no mark. -/
theorem slots_open_iff (hids : (devices.map (·.device_id)).Nodup)
    (hsender : importEcdhPublicKey W N senderJwk = some (W.publicKey sender))
    {importKey : JsText → Option (PublicKey P)}
    (himport : ∀ t pub, importKey t = some pub → publicKeyOf W N t = some pub) :
    (∀ slot ∈ devices.filterMap (encryptSlot W importKey sender draws plaintext),
      ∀ dev ∈ devices, dev.device_id = slot.device_id → ∀ k,
        publicKeyOf W N dev.ecdh_public_key = some (W.publicKey k) →
          decryptFanoutSlot W N k senderJwk slot.ciphertext slot.iv = some plaintext) ↔
      ((∃ dev ∈ devices, takes W sender importKey dev = true) →
        plaintext.toList.head? ≠ some '\uFEFF') := by
  rw [← withoutMark_eq_self_iff]
  constructor
  · rintro hopen ⟨dev, hdev, htakes⟩
    rw [← isSome_encryptSlot draws plaintext] at htakes
    obtain ⟨slot, hslot⟩ := Option.isSome_iff_exists.1 htakes
    obtain ⟨pub, hpub, -⟩ := Option.bind_eq_some_iff.1 hslot
    have hkey := himport _ pub hpub
    obtain ⟨jwk, -, hjwk⟩ := Option.bind_eq_some_iff.1 hkey
    obtain ⟨r, -, hr⟩ := Option.bind_eq_some_iff.1 hjwk
    obtain ⟨k, rfl⟩ := exists_privateKey hr
    have hopened := hopen slot (List.mem_filterMap.2 ⟨dev, hdev, hslot⟩) dev hdev
      (encryptSlot_device_id hslot).symm k hkey
    rw [decrypt_encryptSlot hsender hpub hslot] at hopened
    exact Option.some.inj hopened
  · intro htext slot hslot dev hdev hid k hkey
    obtain ⟨dev', hdev', hslot⟩ := List.mem_filterMap.1 hslot
    -- A slot is of one device.
    obtain rfl := List.inj_on_of_nodup_map hids hdev hdev'
      (hid.trans (encryptSlot_device_id hslot))
    have htakes : takes W sender importKey dev = true := by
      rw [← isSome_encryptSlot draws plaintext, hslot]
      rfl
    obtain ⟨pub, hpub, -⟩ := Option.bind_eq_some_iff.1 hslot
    obtain rfl := Option.some.inj ((himport _ pub hpub).symm.trans hkey)
    rw [decrypt_encryptSlot hsender hpub hslot, htext ⟨dev, hdev, htakes⟩]

theorem opens_main_iff (hids : (devices.map (·.device_id)).Nodup)
    (hsender : importEcdhPublicKey W N senderJwk = some (W.publicKey sender)) :
    Opens W N senderJwk devices plaintext (encryptOnMain W N sender draws devices plaintext) ↔
      ((∃ dev ∈ devices, mainTakes W N sender dev = true) →
        plaintext.toList.head? ≠ some '\uFEFF') := by
  have hslots := slots_open_iff draws plaintext hids hsender
    fun _ _ h => (importEcdhPublicKey_eq_some.1 h).1
  unfold Opens encryptOnMain
  dsimp only
  split_ifs with hnone
  · refine iff_of_true (fun _ h => h.elim) ?_
    rintro ⟨dev, hdev, htakes⟩
    exact absurd htakes (Bool.eq_false_iff.1 (slots_eq_nil.1 hnone.1 dev hdev))
  · refine ⟨fun h => hslots.1 (h _ rfl), fun h result hresult => ?_⟩
    obtain rfl := Except.ok.inj hresult
    exact hslots.2 h

theorem sameOutcome_main :
    SameOutcome (encryptOnMain W N sender draws devices plaintext)
      (encryptOnMain W N sender draws' devices plaintext) := by
  unfold encryptOnMain
  dsimp only
  simp only [slots_eq_nil]
  split_ifs
  · exact rfl
  · exact ⟨fun id => mem_slots.trans mem_slots.symm, fun id => mem_failed.trans mem_failed.symm⟩

/-- Where the worker makes a slot, the main thread agrees exactly if no key that it takes is marked
    and no device without an id is left out. -/
theorem sameOutcome_worker (hids : (devices.map (·.device_id)).Nodup)
    (hworker : ∃ dev ∈ devices, workerTakes W N sender dev = true) :
    SameOutcome (.ok ⟨(handleFanoutEncrypt W N sender draws devices plaintext).1,
        (handleFanoutEncrypt W N sender draws devices plaintext).2, devices.map (·.device_id)⟩)
      (encryptOnMain W N sender draws' devices plaintext) ↔
      ∀ dev ∈ devices, (workerTakes W N sender dev = true →
        isUnextractable N dev.ecdh_public_key = false) ∧
      (dev.device_id = [] → workerTakes W N sender dev = true) := by
  obtain ⟨dev₀, hdev₀, htakes₀⟩ := hworker
  have hmain := fun dev => mainTakes_iff_workerTakes (N := N) (curve_of_workerTakes htakes₀) dev
  have hfailed : ∀ id, id ∈ (handleFanoutEncrypt W N sender draws devices plaintext).2 ↔
      (∃ dev ∈ devices, dev.device_id = id ∧ workerTakes W N sender dev = false) ∧ id ≠ [] := by
    intro id
    rw [handleFanoutEncrypt, List.mem_filter, mem_failed, decide_eq_true_eq]
    rfl
  have hsame : ∀ {dev dev'}, dev ∈ devices → dev' ∈ devices → dev.device_id = dev'.device_id →
      dev = dev' := fun hdev hdev' hid => List.inj_on_of_nodup_map hids hdev hdev' hid
  unfold encryptOnMain
  dsimp only
  split_ifs with hnone
  · refine iff_of_false id fun hall => ?_
    have hmain₀ := (hmain dev₀).2 ⟨htakes₀, (hall dev₀ hdev₀).1 htakes₀⟩
    exact absurd hmain₀ (Bool.eq_false_iff.1 (slots_eq_nil.1 hnone.1 dev₀ hdev₀))
  · constructor
    · rintro ⟨hslots, hfails⟩ dev hdev
      refine ⟨fun htakes => ?_, fun hid => ?_⟩
      · obtain ⟨dev', hdev', hid, htakes'⟩ :=
          mem_slots.1 ((hslots dev.device_id).1 (mem_slots.2 ⟨dev, hdev, rfl, htakes⟩))
        obtain rfl := hsame hdev' hdev hid
        exact ((hmain dev').1 htakes').2
      · by_contra hnot
        have hrefused : mainTakes W N sender dev = false :=
          Bool.eq_false_iff.2 fun htakes => hnot ((hmain dev).1 htakes).1
        have hmem := (hfails dev.device_id).2 (mem_failed.2 ⟨dev, hdev, rfl, hrefused⟩)
        exact ((hfailed _).1 hmem).2 hid
    · intro hall
      have htakes : ∀ dev ∈ devices, mainTakes W N sender dev = workerTakes W N sender dev := by
        intro dev hdev
        rw [Bool.eq_iff_iff, hmain]
        exact ⟨fun h => h.1, fun h => ⟨h, (hall dev hdev).1 h⟩⟩
      refine ⟨fun id => ?_, fun id => ?_⟩
      · refine mem_slots.trans (.trans ?_ mem_slots.symm)
        exact exists_congr fun dev => and_congr_right fun hdev => by
          rw [← mainTakes, htakes dev hdev, workerTakes]
      · refine (hfailed id).trans (.trans ?_ mem_failed.symm)
        constructor
        · rintro ⟨⟨dev, hdev, hid, hrefused⟩, -⟩
          exact ⟨dev, hdev, hid, (htakes dev hdev).trans hrefused⟩
        · rintro ⟨dev, hdev, rfl, hrefused⟩
          have hworker := (htakes dev hdev).symm.trans hrefused
          exact ⟨⟨dev, hdev, rfl, hworker⟩, fun hid =>
            Bool.false_ne_true (hworker.symm.trans ((hall dev hdev).2 hid))⟩

variable (draws plaintext) in
theorem encryptFanoutDetailed_worker (hlen : 2 ≤ devices.length)
    (hworker : ∃ dev ∈ devices, workerTakes W N sender dev = true) :
    encryptFanoutDetailed W N sender draws devices plaintext true =
      .ok ⟨(handleFanoutEncrypt W N sender draws devices plaintext).1,
        (handleFanoutEncrypt W N sender draws devices plaintext).2,
        devices.map (·.device_id)⟩ := by
  have hslots : (handleFanoutEncrypt W N sender draws devices plaintext).1 ≠ [] := by
    intro hnil
    obtain ⟨dev, hdev, htakes⟩ := hworker
    exact absurd htakes (Bool.eq_false_iff.1 (slots_eq_nil.1 hnil dev hdev))
  simp [encryptFanoutDetailed, hlen, hslots]

theorem encryptFanoutDetailed_main (runs : Bool) (h : runs = true → 2 ≤ devices.length →
      ∀ dev ∈ devices, workerTakes W N sender dev = false) :
    encryptFanoutDetailed W N sender draws devices plaintext runs =
      encryptOnMain W N sender draws devices plaintext := by
  rw [encryptFanoutDetailed, if_neg]
  rintro ⟨hlen, hruns, hslots⟩
  exact hslots (slots_eq_nil.2 (h hruns hlen))

/-- The paths agree, and their slots open to the text, exactly if no device that the worker makes a
    slot for has a marked key, and the text of a slot has no byte order mark. -/
theorem agree_iff (hids : (devices.map (·.device_id)).Nodup)
    (hsender : importEcdhPublicKey W N senderJwk = some (W.publicKey sender)) :
    (SameOutcome (encryptFanoutDetailed W N sender draws devices plaintext true)
        (encryptFanoutDetailed W N sender draws' devices plaintext false) ∧
      Opens W N senderJwk devices plaintext
        (encryptFanoutDetailed W N sender draws devices plaintext true) ∧
      Opens W N senderJwk devices plaintext
        (encryptFanoutDetailed W N sender draws' devices plaintext false)) ↔
      KeysAgree W N sender devices ∧ TextKept W N sender devices plaintext := by
  rw [encryptFanoutDetailed_main false (fun h => absurd h Bool.false_ne_true),
    opens_main_iff hids hsender]
  by_cases h : 2 ≤ devices.length ∧ ∃ dev ∈ devices, workerTakes W N sender dev = true
  · obtain ⟨hlen, hsome⟩ := h
    have htrue := encryptFanoutDetailed_worker draws plaintext hlen hsome
    have hopens : Opens W N senderJwk devices plaintext
        (encryptFanoutDetailed W N sender draws devices plaintext true) ↔
          ((∃ dev ∈ devices, workerTakes W N sender dev = true) →
            plaintext.toList.head? ≠ some '\uFEFF') := by
      rw [htrue, workerTakes, ← slots_open_iff draws plaintext hids hsender
        fun _ _ h => (importP256PublicKey_eq_some.1 h).1]
      refine ⟨fun h => h _ rfl, fun h result hresult => ?_⟩
      obtain rfl := Except.ok.inj hresult
      exact h
    rw [hopens, htrue, sameOutcome_worker hids hsome]
    refine and_congr ⟨fun h _ _ => h, fun h => h hlen hsome⟩ ?_
    constructor
    · rintro ⟨hworkerText, -⟩ -
      exact hworkerText hsome
    · intro htext
      exact ⟨fun ⟨dev, hdev, htakes⟩ => htext ⟨dev, hdev, .inr ⟨hlen, htakes⟩⟩,
        fun ⟨dev, hdev, htakes⟩ => htext ⟨dev, hdev, .inl htakes⟩⟩
  · have hnone : ∀ dev ∈ devices, 2 ≤ devices.length → workerTakes W N sender dev = false :=
      fun dev hdev hlen => Bool.eq_false_iff.2 fun htakes => h ⟨hlen, dev, hdev, htakes⟩
    rw [encryptFanoutDetailed_main true fun _ hlen dev hdev => hnone dev hdev hlen,
      opens_main_iff hids hsender]
    constructor
    · rintro ⟨-, htext, -⟩
      refine ⟨fun hlen hsome => absurd ⟨hlen, hsome⟩ h, ?_⟩
      rintro ⟨dev, hdev, htakes | ⟨hlen, htakes⟩⟩
      · exact htext ⟨dev, hdev, htakes⟩
      · exact absurd ⟨hlen, dev, hdev, htakes⟩ h
    · rintro ⟨-, htext⟩
      have hmain : (∃ dev ∈ devices, mainTakes W N sender dev = true) →
          plaintext.toList.head? ≠ some '\uFEFF' :=
        fun ⟨dev, hdev, htakes⟩ => htext ⟨dev, hdev, .inl htakes⟩
      exact ⟨sameOutcome_main, hmain, hmain⟩

end

end

/-! ## A marked key -/

namespace Sample

/-- A point is its number, and two keys share the sum of theirs. -/
def webCrypto : WebCrypto ℕ (EcdhCurve × ℕ) ℕ ℕ where
  point _ x _ := some x.length
  curve k := k.1
  publicPoint k := k.2
  exists_private c _ _ p _ := ⟨(c, p), rfl, rfl⟩
  ecdh k p := k.2 + p
  ecdh_comm k k' _ := Nat.add_comm k.2 k'.2
  hkdf := id
  encrypt _ _ bytes := 0 :: bytes
  decrypt _ _ bytes := some bytes.tail
  decrypt_encrypt _ _ _ := rfl
  encrypt_ne_nil _ _ _ := List.cons_ne_nil _ _
  replaced _ := ""

def members (x : String) : List (JsText × Value ℕ) :=
  [(ascii "kty", .str (ascii "EC")), (ascii "crv", .str (ascii "P-256")),
    (ascii "x", .str (ascii x)), (ascii "y", .str (ascii "AQ"))]

def jwk (x : String) : Value ℕ := .obj (members x)

/-- The same key, not to be exported. -/
def markedJwk (x : String) : Value ℕ := .obj (members x ++ [(ascii "ext", .bool false)])

def sender : EcdhCurve × ℕ := (.p256, 1)

def senderJwk : JsText := stringify (jwk "A")

def device : DeviceSlot := ⟨ascii "d1", stringify (jwk "AB")⟩

def otherDevice : DeviceSlot := ⟨ascii "d2", stringify (jwk "ABC")⟩

def markedDevice : DeviceSlot := ⟨ascii "d2", stringify (markedJwk "ABC")⟩

def draws (_ : JsText) : Bytes := List.replicate 12 0

end Sample

open Sample

theorem parseOwn_jwk (x : String) : parseOwn (stringify (jwk x)) = some (jwk x) := by
  have hindex : ∀ key ∈ ["kty", "crv", "x", "y"], arrayIndex (ascii key) = none := by decide
  rw [parseOwn, parse_stringify, Option.map_some]
  simp only [jwk, members, Value.own, ownFields]
  rw [ownMembers_eq_self]
  · simp [ascii_inj]
  · simp [hindex]

theorem parseOwn_markedJwk (x : String) :
    parseOwn (stringify (markedJwk x)) = some (markedJwk x) := by
  have hindex : ∀ key ∈ ["kty", "crv", "x", "y", "ext"], arrayIndex (ascii key) = none := by decide
  rw [parseOwn, parse_stringify, Option.map_some]
  simp only [markedJwk, members, List.cons_append, List.nil_append, Value.own, ownFields]
  rw [ownMembers_eq_self]
  · simp [ascii_inj]
  · simp [hindex]

theorem publicKeyOf_jwk (x : String) : publicKeyOf webCrypto ℕ (stringify (jwk x)) =
    some (webCrypto.publicKey (.p256, (ascii x).length)) := by
  rw [publicKeyOf, parseOwn_jwk]
  rfl

theorem publicKeyOf_markedJwk (x : String) : publicKeyOf webCrypto ℕ (stringify (markedJwk x)) =
    some (webCrypto.publicKey (.p256, (ascii x).length)) := by
  rw [publicKeyOf, parseOwn_markedJwk]
  rfl

theorem isUnextractable_jwk (x : String) : isUnextractable ℕ (stringify (jwk x)) = false := by
  rw [isUnextractable, parseOwn_jwk]
  rfl

theorem isUnextractable_markedJwk (x : String) :
    isUnextractable ℕ (stringify (markedJwk x)) = true := by
  rw [isUnextractable, parseOwn_markedJwk]
  rfl

theorem importEcdhPublicKey_senderJwk :
    importEcdhPublicKey webCrypto ℕ senderJwk = some (webCrypto.publicKey sender) :=
  importEcdhPublicKey_eq_some.2 ⟨publicKeyOf_jwk "A", isUnextractable_jwk "A"⟩

theorem agree_iff_unmarked :
    SameOutcome
      (encryptFanoutDetailed webCrypto ℕ sender draws [device, otherDevice] "hi" true)
      (encryptFanoutDetailed webCrypto ℕ sender draws [device, otherDevice] "hi" false) ∧
    Opens webCrypto ℕ senderJwk [device, otherDevice] "hi"
      (encryptFanoutDetailed webCrypto ℕ sender draws [device, otherDevice] "hi" true) ∧
    Opens webCrypto ℕ senderJwk [device, otherDevice] "hi"
      (encryptFanoutDetailed webCrypto ℕ sender draws [device, otherDevice] "hi" false) := by
  refine (agree_iff (by decide) importEcdhPublicKey_senderJwk).2 ⟨fun _ _ dev hdev => ?_,
    fun _ => by decide⟩
  rcases List.mem_pair.1 hdev with rfl | rfl
  · exact ⟨fun _ => isUnextractable_jwk "AB", fun hid => absurd hid (by decide)⟩
  · exact ⟨fun _ => isUnextractable_jwk "ABC", fun hid => absurd hid (by decide)⟩

/-- The worker makes a slot for a marked key, and the main thread does not. -/
theorem marked_device_dropped : ¬SameOutcome
    (encryptFanoutDetailed webCrypto ℕ sender draws [device, markedDevice] "hi" true)
    (encryptFanoutDetailed webCrypto ℕ sender draws [device, markedDevice] "hi" false) := by
  have htakes : workerTakes webCrypto ℕ sender markedDevice = true :=
    workerTakes_iff.2 ⟨_, publicKeyOf_markedJwk "ABC", rfl, rfl⟩
  have hmem : markedDevice ∈ [device, markedDevice] := List.mem_cons_of_mem _ List.mem_cons_self
  have hlen : 2 ≤ [device, markedDevice].length := Nat.le_refl 2
  rw [encryptFanoutDetailed_worker draws "hi" hlen ⟨markedDevice, hmem, htakes⟩,
    encryptFanoutDetailed_main false fun h => absurd h Bool.false_ne_true,
    sameOutcome_worker (by decide) ⟨markedDevice, hmem, htakes⟩]
  intro hall
  exact absurd (isUnextractable_markedJwk "ABC")
    (Bool.eq_false_iff.1 ((hall markedDevice hmem).1 htakes))

end OneToThree.Fanout
