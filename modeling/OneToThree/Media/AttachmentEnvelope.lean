import Mathlib.Order.Defs.LinearOrder
import OneToThree.Lib.JsonUnits

/-!
# The envelopes of attachments

What a message with media says of it is sealed as a JSON text, and parsed where it is received. The
two sides are apart: the parser cuts what is longer than it expects, and leaves out what it does not
recognise.

* `AttachmentEnvelopeV1.parse_text`, `AlbumEnvelopeV1.parse_text`: exactly what the parser makes of
  an envelope, whatever is in it.
* `arrives_iff`: what is sent arrives exactly if its names, types and paths are within the limits of
  the parser, a preview is a data URL within its own, and the caption has at most 512 units.
* `caption_cut`: the composer of an album admits captions of twice as many, which arrive cut.
-/

namespace OneToThree.AttachmentEnvelope

open JsText JsonUnits

/-- A number of the language. -/
inductive JsNum (N : Type)
  | finite (n : N)
  | infinity
  | negInfinity
  | nan
  deriving DecidableEq

/-- `Math.round`. -/
class Rounding (N : Type) where
  round : N → N

inductive AttachmentKind
  | voice
  | video_circle
  | video
  | image
  | file
  deriving DecidableEq

def AttachmentKind.text : AttachmentKind → String
  | voice => "voice"
  | video_circle => "video_circle"
  | video => "video"
  | image => "image"
  | file => "file"

structure AttachmentEnvelopeV1 (N : Type) where
  fileName : JsText
  fileSize : N
  mimeType : JsText
  wrapIv : JsText
  wrapCt : JsText
  caption : Option JsText
  kind : Option AttachmentKind
  thumbhash : Option JsText
  durationMs : Option (JsNum N)
  waveform : Option (List (JsNum N))

structure AlbumItemV1 (N : Type) where
  path : JsText
  iv : JsText
  mimeType : JsText
  fileName : JsText
  fileSize : N
  wrapCt : JsText
  wrapIv : JsText
  kind : AttachmentKind
  thumbhash : Option JsText

structure AlbumEnvelopeV1 (N : Type) where
  items : List (AlbumItemV1 N)
  caption : Option JsText

section
variable {N : Type} [LinearOrder N] [NatCast N] [Rounding N] [Number N]

/-! ## The sender -/

/-- What `JSON.stringify` makes of a number. -/
def JsNum.json : JsNum N → Value N
  | finite n => .num n
  | _ => .null

def AttachmentKind.json (kind : AttachmentKind) : Value N := .str (ascii kind.text)

def AttachmentEnvelopeV1.json (e : AttachmentEnvelopeV1 N) : Value N :=
  .obj ([(ascii "p13", .str (ascii "attachment")), (ascii "v", .num (Nat.cast 1)),
    (ascii "fileName", .str e.fileName), (ascii "fileSize", .num e.fileSize),
    (ascii "mimeType", .str e.mimeType), (ascii "wrapIv", .str e.wrapIv),
    (ascii "wrapCt", .str e.wrapCt)] ++ optional "kind" AttachmentKind.json e.kind ++
    optional "caption" .str e.caption ++ optional "thumbhash" .str e.thumbhash ++
    optional "durationMs" JsNum.json e.durationMs ++
    optional "waveform" (fun l => .arr (l.map JsNum.json)) e.waveform)

def AlbumItemV1.json (x : AlbumItemV1 N) : Value N :=
  .obj ([(ascii "path", .str x.path), (ascii "iv", .str x.iv), (ascii "mimeType", .str x.mimeType),
    (ascii "fileName", .str x.fileName), (ascii "fileSize", .num x.fileSize),
    (ascii "wrapCt", .str x.wrapCt), (ascii "wrapIv", .str x.wrapIv),
    (ascii "kind", x.kind.json)] ++ optional "thumbhash" .str x.thumbhash)

def AlbumEnvelopeV1.json (e : AlbumEnvelopeV1 N) : Value N :=
  .obj ([(ascii "p13", .str (ascii "album")), (ascii "v", .num (Nat.cast 1)),
    (ascii "items", .arr (e.items.map AlbumItemV1.json))] ++ optional "caption" .str e.caption)

/-- The plaintext of a message. -/
def AttachmentEnvelopeV1.text (e : AttachmentEnvelopeV1 N) : JsText := stringify e.json

def AlbumEnvelopeV1.text (e : AlbumEnvelopeV1 N) : JsText := stringify e.json

inductive SegmentClass
  | audio
  | video
  | image
  | file
  deriving DecidableEq

/-- What is left of a file once it is encrypted. -/
structure EncryptedBlob (N : Type) where
  mediaIvB64 : JsText
  wrapCt : JsText
  wrapIv : JsText
  mimeType : JsText
  workSize : N
  label : JsText
  tinyPreview : Option JsText

structure TransmitOptions (N : Type) where
  caption : Option JsText
  kind : Option AttachmentKind
  durationMs : Option (JsNum N)
  waveform : Option (List (JsNum N))

/-- An item of an album, that was uploaded. -/
structure Uploaded (N : Type) where
  prepared : EncryptedBlob N
  filePath : JsText
  segmentClass : SegmentClass
  options : TransmitOptions N

def startsWith (t : JsText) (start : String) : Bool := (ascii start).isPrefixOf t

def kindFromSegment (seg : SegmentClass) (mime : JsText) (explicit : Option AttachmentKind) :
    AttachmentKind :=
  match explicit with
  | some kind => kind
  | none =>
    match seg with
    | .image => .image
    | .audio => .voice
    | .video => .video
    | .file =>
      if startsWith mime "image/" then .image
      else if startsWith mime "audio/" then .voice
      else if startsWith mime "video/" then .video
      else .file

/-- A caption that is not blank, trimmed. -/
def trimCaption (caption : Option JsText) : Option JsText :=
  (caption.map trim).filter (· ≠ [])

def JsNum.isPositive : JsNum N → Bool
  | finite n => Nat.cast 0 < n
  | infinity => true
  | negInfinity | nan => false

def attachmentEnvelope (prepared : EncryptedBlob N) (segmentClass : SegmentClass)
    (options : TransmitOptions N) : AttachmentEnvelopeV1 N where
  fileName := prepared.label
  fileSize := prepared.workSize
  mimeType := prepared.mimeType
  wrapIv := prepared.wrapIv
  wrapCt := prepared.wrapCt
  kind := some (kindFromSegment segmentClass prepared.mimeType options.kind)
  caption := trimCaption options.caption
  thumbhash := prepared.tinyPreview.filter (· ≠ [])
  durationMs := options.durationMs.filter JsNum.isPositive
  waveform := options.waveform.filter (· ≠ [])

def Uploaded.item (x : Uploaded N) : AlbumItemV1 N where
  path := x.filePath
  iv := x.prepared.mediaIvB64
  mimeType := x.prepared.mimeType
  fileName := x.prepared.label
  fileSize := x.prepared.workSize
  wrapCt := x.prepared.wrapCt
  wrapIv := x.prepared.wrapIv
  kind := kindFromSegment x.segmentClass x.prepared.mimeType x.options.kind
  thumbhash := none

def albumEnvelope (items : List (Uploaded N)) (caption : Option JsText) : AlbumEnvelopeV1 N where
  items := items.map Uploaded.item
  caption := trimCaption caption

def MAX_ALBUM_ITEMS : ℕ := 10

/-- What is sent. -/
inductive Transmission (N : Type)
  | binary (prepared : EncryptedBlob N) (segmentClass : SegmentClass) (options : TransmitOptions N)
  | album (items : List (Uploaded N)) (caption : Option JsText)

inductive Envelope (N : Type)
  | attachment (e : AttachmentEnvelopeV1 N)
  | album (e : AlbumEnvelopeV1 N)

/-- The envelope of a message, if one is sent: an album of one item goes as an attachment. -/
def Transmission.envelope : Transmission N → Option (Envelope N)
  | binary prepared segmentClass options =>
    some (.attachment (attachmentEnvelope prepared segmentClass options))
  | album [] _ => none
  | album [x] caption =>
    some (.attachment (attachmentEnvelope x.prepared x.segmentClass
      { x.options with caption := caption }))
  | album (x :: y :: items) caption =>
    if MAX_ALBUM_ITEMS < (x :: y :: items).length then none
    else some (.album (albumEnvelope (x :: y :: items) caption))

/-! ## The recipient -/

/-- What the parsers begin with. -/
def openEnvelope (plaintext : Option JsText) : Option (Value N) :=
  match plaintext with
  | none => none
  | some t =>
    if t = [] ∨ t = ascii "[DECRYPT_FAIL]" then none
    else if (trim t).head? ≠ some 0x7B then none
    else JsonUnits.parse (trim t)

/-- Whether an envelope is of a kind, in its first version. -/
def isMarked (o : Value N) (marker : String) : Bool :=
  (o.get? "p13").bind Value.text? = some (ascii marker) &&
    (o.get? "v").bind Value.num? = some (Nat.cast 1)

def isAttachmentKind (x : Option (Value N)) : Option AttachmentKind :=
  (x.bind Value.text?).bind fun t =>
    [.voice, .video_circle, .video, .image, .file].find? fun kind => t = ascii kind.text

def parseCaption (x : Option (Value N)) : Option JsText :=
  ((x.bind Value.text?).filter fun t => trim t ≠ []).map (·.take 512)

def MAX_DURATION_MS : ℕ := 24 * 60 * 60 * 1000

def parseDuration (x : Option (Value N)) : Option (JsNum N) :=
  ((x.bind Value.num?).filter (Nat.cast 0 < ·)).map fun n =>
    .finite (min n (Nat.cast MAX_DURATION_MS))

/-- A peak of a waveform. -/
def peak (x : Value N) : JsNum N :=
  match x.num? with
  | some n => .finite (max (Nat.cast 0) (min (Nat.cast 100) (Rounding.round n)))
  | none => .finite (Nat.cast 0)

def parseWaveform (x : Option (Value N)) : Option (List (JsNum N)) :=
  match x with
  | some (.arr (y :: ys)) => some (((y :: ys).take 128).map peak)
  | _ => none

def readAttachment (o : Value N) : Option (AttachmentEnvelopeV1 N) := do
  guard (isMarked o "attachment")
  let fileName ← (o.get? "fileName").bind Value.text?
  let fileSize ← (o.get? "fileSize").bind Value.num?
  let mimeType ← (o.get? "mimeType").bind Value.text?
  let wrapIv ← (o.get? "wrapIv").bind Value.text?
  let wrapCt ← (o.get? "wrapCt").bind Value.text?
  return {
    fileName := fileName.take 512
    fileSize := fileSize
    mimeType := mimeType.take 256
    wrapIv := wrapIv
    wrapCt := wrapCt
    caption := parseCaption (o.get? "caption")
    kind := isAttachmentKind (o.get? "kind")
    thumbhash := (((o.get? "thumbhash").bind Value.text?).filter (startsWith · "data:")).map
      (·.take 4096)
    durationMs := parseDuration (o.get? "durationMs")
    waveform := parseWaveform (o.get? "waveform") }

def parseAttachmentEnvelope (plaintext : Option JsText) : Option (AttachmentEnvelopeV1 N) :=
  (openEnvelope plaintext).bind readAttachment

def readItem (r : Value N) : Option (AlbumItemV1 N) := do
  let path ← (r.get? "path").bind Value.text?
  let iv ← (r.get? "iv").bind Value.text?
  let mimeType ← (r.get? "mimeType").bind Value.text?
  let fileName ← (r.get? "fileName").bind Value.text?
  let fileSize ← (r.get? "fileSize").bind Value.num?
  let wrapCt ← (r.get? "wrapCt").bind Value.text?
  let wrapIv ← (r.get? "wrapIv").bind Value.text?
  let kind ← isAttachmentKind (r.get? "kind")
  return {
    path := path.take 2048
    iv := iv
    mimeType := mimeType.take 256
    fileName := fileName.take 512
    fileSize := fileSize
    wrapCt := wrapCt
    wrapIv := wrapIv
    kind := kind
    thumbhash := ((r.get? "thumbhash").bind Value.text?).map (·.take 512) }

def readAlbum (o : Value N) : Option (AlbumEnvelopeV1 N) := do
  guard (isMarked o "album")
  match o.get? "items" with
  | some (.arr raws) =>
    guard (raws ≠ [] ∧ raws.length ≤ 10)
    let items ← raws.mapM readItem
    return { items := items, caption := parseCaption (o.get? "caption") }
  | _ => none

def parseAlbumEnvelope (plaintext : Option JsText) : Option (AlbumEnvelopeV1 N) :=
  (openEnvelope plaintext).bind readAlbum

end

/-! ## What the recipient makes of an envelope -/

section
variable {N : Type}

theorem isAttachmentKind_json (kind : AttachmentKind) :
    isAttachmentKind (some (kind.json (N := N))) = some kind := by
  cases kind <;> rfl

theorem text?_str (x : Option JsText) : (x.map Value.str).bind (Value.text? (N := N)) = x := by
  cases x <;> rfl

theorem parseCaption_str (x : Option JsText) : parseCaption (x.map (Value.str (N := N))) =
    (x.filter fun t => trim t ≠ []).map (·.take 512) := by
  rw [parseCaption, text?_str]

/-- The text of an object is opened as it was written. -/
theorem openEnvelope_stringify [Number N] (fields : List (JsText × Value N)) :
    openEnvelope (some (stringify (.obj fields))) = some (.obj fields) := by
  obtain ⟨hhead, hlast⟩ := stringify_obj fields
  have hne : ¬(stringify (.obj fields) = [] ∨
      stringify (.obj fields) = ascii "[DECRYPT_FAIL]") := by
    rintro (h | h) <;> rw [h] at hhead <;> cases hhead
  have htrim : trim (stringify (.obj fields)) = stringify (.obj fields) := by
    refine trim_eq_self (fun u hu => ?_) fun u hu => ?_
    · obtain rfl := Option.some.inj (hhead.symm.trans hu)
      rfl
    · obtain rfl := Option.some.inj (hlast.symm.trans hu)
      rfl
  rw [openEnvelope, if_neg hne, htrim, if_neg (not_not.2 hhead), parse_stringify]

end

section
variable {N : Type} [LinearOrder N] [NatCast N]

def JsNum.receivedDuration : JsNum N → Option (JsNum N)
  | finite n => if Nat.cast 0 < n then some (.finite (min n (Nat.cast MAX_DURATION_MS))) else none
  | _ => none

theorem parseDuration_json (x : Option (JsNum N)) :
    parseDuration (x.map JsNum.json) = x.bind JsNum.receivedDuration := by
  cases x with
  | none => rfl
  | some n =>
    cases n with
    | finite n =>
      change (Option.filter _ (some n)).map _ = if Nat.cast 0 < n then _ else _
      rw [Option.filter_some]
      simp only [decide_eq_true_eq]
      split_ifs <;> rfl
    | infinity | negInfinity | nan => rfl

variable [Rounding N]

theorem parseWaveform_json (x : Option (List (JsNum N))) :
    parseWaveform (x.map fun l => .arr (l.map JsNum.json)) =
      (x.filter (· ≠ [])).map fun l => (l.take 128).map fun n => peak n.json := by
  cases x with
  | none => rfl
  | some l =>
    cases l with
    | nil => rfl
    | cons n l =>
      rw [Option.filter_some, if_pos (by simp)]
      simp [parseWaveform, List.map_take, Function.comp_def]

/-- An attachment, as it is received. -/
def AttachmentEnvelopeV1.received (e : AttachmentEnvelopeV1 N) : AttachmentEnvelopeV1 N :=
  { e with
    fileName := e.fileName.take 512
    mimeType := e.mimeType.take 256
    caption := (e.caption.filter fun t => trim t ≠ []).map (·.take 512)
    thumbhash := (e.thumbhash.filter (startsWith · "data:")).map (·.take 4096)
    durationMs := e.durationMs.bind JsNum.receivedDuration
    waveform := (e.waveform.filter (· ≠ [])).map fun l => (l.take 128).map fun n => peak n.json }

theorem readAttachment_json (e : AttachmentEnvelopeV1 N) :
    readAttachment e.json = some e.received := by
  have hkind : isAttachmentKind (e.kind.map (AttachmentKind.json (N := N))) = e.kind := by
    cases e.kind with
    | none => rfl
    | some kind => exact isAttachmentKind_json kind
  simp [readAttachment, isMarked, Value.get?, AttachmentEnvelopeV1.json, field_append,
    field_optional, field, ascii_inj, Value.text?, Value.num?, AttachmentEnvelopeV1.received, hkind,
    parseDuration_json, parseWaveform_json, text?_str, parseCaption_str]

/-- **What is received of an attachment**, whatever is in it. -/
theorem AttachmentEnvelopeV1.parse_text [Number N] (e : AttachmentEnvelopeV1 N) :
    parseAttachmentEnvelope (some e.text) = some e.received := by
  rw [parseAttachmentEnvelope, AttachmentEnvelopeV1.text, AttachmentEnvelopeV1.json,
    openEnvelope_stringify, Option.bind_some]
  exact readAttachment_json e

end

section
variable {N : Type}

/-- An item of an album, as it is received. -/
def AlbumItemV1.received (x : AlbumItemV1 N) : AlbumItemV1 N :=
  { x with
    path := x.path.take 2048
    mimeType := x.mimeType.take 256
    fileName := x.fileName.take 512
    thumbhash := x.thumbhash.map (·.take 512) }

theorem readItem_json (x : AlbumItemV1 N) : readItem x.json = some x.received := by
  simp [readItem, Value.get?, AlbumItemV1.json, field_optional, field, ascii_inj, Value.text?,
    Value.num?, AlbumItemV1.received, isAttachmentKind_json, text?_str]

theorem mapM_readItem (items : List (AlbumItemV1 N)) :
    items.mapM (readItem ∘ AlbumItemV1.json) = some (items.map AlbumItemV1.received) := by
  induction items with
  | nil => rfl
  | cons x items ih =>
    rw [List.mapM_cons, Function.comp_apply, readItem_json, ih]
    rfl

def AlbumEnvelopeV1.received (e : AlbumEnvelopeV1 N) : AlbumEnvelopeV1 N where
  items := e.items.map AlbumItemV1.received
  caption := (e.caption.filter fun t => trim t ≠ []).map (·.take 512)

variable [LinearOrder N] [NatCast N]

theorem readAlbum_json {e : AlbumEnvelopeV1 N} (hne : e.items ≠ []) (hlen : e.items.length ≤ 10) :
    readAlbum e.json = some e.received := by
  have hcaption := parseCaption_str (N := N) e.caption
  simp [readAlbum, isMarked, Value.get?, AlbumEnvelopeV1.json, field_optional, field, ascii_inj,
    Value.text?, Value.num?, AlbumEnvelopeV1.received, hne, hlen, mapM_readItem, hcaption]

/-- **What is received of an album** of up to ten items, whatever is in it. -/
theorem AlbumEnvelopeV1.parse_text [Number N] {e : AlbumEnvelopeV1 N} (hne : e.items ≠ [])
    (hlen : e.items.length ≤ 10) : parseAlbumEnvelope (some e.text) = some e.received := by
  rw [parseAlbumEnvelope, AlbumEnvelopeV1.text, AlbumEnvelopeV1.json, openEnvelope_stringify,
    Option.bind_some]
  exact readAlbum_json hne hlen

end

/-! ## What arrives -/

section
variable {N : Type}

/-- An attachment has the name, the type, the keys, the size, the kind and the preview of another
    one, and its caption. -/
def AttachmentEnvelopeV1.Same (e e' : AttachmentEnvelopeV1 N) : Prop :=
  e'.caption = e.caption ∧ e'.fileName = e.fileName ∧ e'.mimeType = e.mimeType ∧
    e'.wrapIv = e.wrapIv ∧ e'.wrapCt = e.wrapCt ∧ e'.fileSize = e.fileSize ∧ e'.kind = e.kind ∧
    e'.thumbhash = e.thumbhash

variable [LinearOrder N] [NatCast N] [Rounding N] [Number N]

/-- What is in an envelope is parsed from its text. -/
def Envelope.Arrives : Envelope N → Prop
  | attachment e => ∃ e', parseAttachmentEnvelope (some e.text) = some e' ∧ e.Same e'
  | album e => parseAlbumEnvelope (some e.text) = some e

/-- Whatever is sent arrives. -/
def Transmission.Arrives (t : Transmission N) : Prop := ∀ e ∈ t.envelope, e.Arrives

end

section
variable {N : Type}

def CaptionFits (caption : Option JsText) : Prop := ∀ t ∈ caption, (trim t).length ≤ 512

/-- A file whose name and type are kept. -/
def EncryptedBlob.Fits (prepared : EncryptedBlob N) : Prop :=
  prepared.label.length ≤ 512 ∧ prepared.mimeType.length ≤ 256

/-- A file whose preview is kept as well. -/
def EncryptedBlob.FitsAlone (prepared : EncryptedBlob N) : Prop :=
  prepared.Fits ∧ ∀ t ∈ prepared.tinyPreview, t ≠ [] →
    startsWith t "data:" = true ∧ t.length ≤ 4096

def Transmission.Fits : Transmission N → Prop
  | binary prepared _ options => prepared.FitsAlone ∧ CaptionFits options.caption
  | album [] _ => True
  | album [x] caption => x.prepared.FitsAlone ∧ CaptionFits caption
  | album (x :: y :: items) caption => (x :: y :: items).length ≤ MAX_ALBUM_ITEMS →
    (∀ z ∈ x :: y :: items, z.prepared.Fits ∧ z.filePath.length ≤ 2048) ∧ CaptionFits caption

/-- A caption that is sent is not blank. -/
theorem trimCaption_received (caption : Option JsText) :
    ((trimCaption caption).filter fun t => trim t ≠ []).map (·.take 512) = trimCaption caption ↔
      CaptionFits caption := by
  cases caption with
  | none => exact iff_of_true rfl fun t ht => absurd ht (Option.not_mem_none t)
  | some t =>
    have hiff : CaptionFits (some t) ↔ (trim t).length ≤ 512 :=
      ⟨fun h => h t rfl, fun h t' ht' => Option.some.inj ht' ▸ h⟩
    rw [hiff, trimCaption, Option.map_some, Option.filter_some]
    by_cases hblank : trim t = []
    · rw [hblank, if_neg (by simp)]
      exact iff_of_true rfl (Nat.zero_le _)
    · rw [if_pos (by simpa using hblank), Option.filter_some, trim_trim,
        if_pos (by simpa using hblank), Option.map_some, Option.some_inj, List.take_eq_self_iff]

theorem preview_received (preview : Option JsText) :
    ((preview.filter (· ≠ [])).filter (startsWith · "data:")).map (·.take 4096) =
        preview.filter (· ≠ []) ↔
      ∀ t ∈ preview, t ≠ [] → startsWith t "data:" = true ∧ t.length ≤ 4096 := by
  cases preview with
  | none => exact iff_of_true rfl fun t ht => absurd ht (Option.not_mem_none t)
  | some t =>
    by_cases hempty : t = []
    · rw [hempty]
      refine iff_of_true rfl fun t' ht' hne => ?_
      exact absurd (Option.some.inj ht').symm hne
    · rw [Option.filter_some, if_pos (by simpa using hempty), Option.filter_some]
      by_cases hdata : startsWith t "data:" = true
      · rw [if_pos hdata, Option.map_some, Option.some_inj, List.take_eq_self_iff]
        exact ⟨fun h t' ht' _ => Option.some.inj ht' ▸ ⟨hdata, h⟩, fun h => (h t rfl hempty).2⟩
      · rw [if_neg hdata]
        exact iff_of_false (Option.some_ne_none t).symm fun h => hdata (h t rfl hempty).1

theorem Uploaded.item_received (x : Uploaded N) : x.item.received = x.item ↔
    x.prepared.Fits ∧ x.filePath.length ≤ 2048 := by
  have hiff : x.item.received = x.item ↔ x.filePath.take 2048 = x.filePath ∧
      x.prepared.mimeType.take 256 = x.prepared.mimeType ∧
      x.prepared.label.take 512 = x.prepared.label := by
    rw [AlbumItemV1.received, AlbumItemV1.mk.injEq]
    simp [Uploaded.item]
  rw [hiff, List.take_eq_self_iff, List.take_eq_self_iff, List.take_eq_self_iff, EncryptedBlob.Fits]
  exact ⟨fun h => ⟨⟨h.2.2, h.2.1⟩, h.1⟩, fun h => ⟨h.2, h.1.2, h.1.1⟩⟩

theorem attachment_same_iff [LinearOrder N] [NatCast N] [Rounding N] (prepared : EncryptedBlob N)
    (segmentClass : SegmentClass) (options : TransmitOptions N) :
    (attachmentEnvelope prepared segmentClass options).Same
        (attachmentEnvelope prepared segmentClass options).received ↔
      prepared.FitsAlone ∧ CaptionFits options.caption := by
  rw [← trimCaption_received, EncryptedBlob.FitsAlone, ← preview_received, EncryptedBlob.Fits,
    ← List.take_eq_self_iff, ← List.take_eq_self_iff]
  constructor
  · rintro ⟨hcaption, hname, htype, -, -, -, -, hpreview⟩
    exact ⟨⟨⟨hname, htype⟩, hpreview⟩, hcaption⟩
  · rintro ⟨⟨⟨hname, htype⟩, hpreview⟩, hcaption⟩
    exact ⟨hcaption, hname, htype, rfl, rfl, rfl, rfl, hpreview⟩

theorem albumEnvelope_received (items : List (Uploaded N)) (caption : Option JsText) :
    (albumEnvelope items caption).received = albumEnvelope items caption ↔
      (∀ x ∈ items, x.prepared.Fits ∧ x.filePath.length ≤ 2048) ∧ CaptionFits caption := by
  rw [AlbumEnvelopeV1.received, albumEnvelope, AlbumEnvelopeV1.mk.injEq, trimCaption_received,
    List.map_map, List.map_inj_left]
  exact and_congr_left' (forall₂_congr fun x _ => x.item_received)

variable [LinearOrder N] [NatCast N] [Rounding N] [Number N]

theorem attachment_arrives_iff (prepared : EncryptedBlob N) (segmentClass : SegmentClass)
    (options : TransmitOptions N) :
    (Envelope.attachment (attachmentEnvelope prepared segmentClass options)).Arrives ↔
      prepared.FitsAlone ∧ CaptionFits options.caption := by
  rw [← attachment_same_iff prepared segmentClass, Envelope.Arrives,
    AttachmentEnvelopeV1.parse_text]
  simp

theorem album_arrives_iff {items : List (Uploaded N)} (hne : items ≠ [])
    (hlen : items.length ≤ MAX_ALBUM_ITEMS) (caption : Option JsText) :
    (Envelope.album (albumEnvelope items caption)).Arrives ↔
      (∀ x ∈ items, x.prepared.Fits ∧ x.filePath.length ≤ 2048) ∧ CaptionFits caption := by
  have hne' : (albumEnvelope items caption).items ≠ [] := fun h => hne (List.map_eq_nil_iff.1 h)
  have hlen' : (albumEnvelope items caption).items.length ≤ 10 := by
    rw [albumEnvelope, List.length_map]
    exact hlen
  rw [Envelope.Arrives, AlbumEnvelopeV1.parse_text hne' hlen', Option.some_inj,
    albumEnvelope_received]

/-- **What is sent arrives** exactly if it is within the limits of the parser. -/
theorem arrives_iff (t : Transmission N) : t.Arrives ↔ t.Fits := by
  have hsome : ∀ {e : Envelope N}, t.envelope = some e → (t.Arrives ↔ e.Arrives) := by
    intro e he
    rw [Transmission.Arrives, he]
    exact ⟨fun h => h e rfl, fun h e' he' => Option.some.inj he' ▸ h⟩
  have hnone : t.envelope = none → t.Arrives := by
    intro he e he'
    rw [he] at he'
    cases he'
  cases t with
  | binary prepared segmentClass options =>
    exact (hsome rfl).trans (attachment_arrives_iff prepared segmentClass options)
  | album items caption =>
    cases items with
    | nil => exact iff_of_true (hnone rfl) trivial
    | cons x items =>
      cases items with
      | nil => exact (hsome rfl).trans (attachment_arrives_iff x.prepared x.segmentClass _)
      | cons y items =>
        rcases Nat.lt_or_ge MAX_ALBUM_ITEMS (x :: y :: items).length with hlong | hlen
        · exact iff_of_true (hnone (if_pos hlong)) fun h => absurd h (Nat.not_le.2 hlong)
        · rw [hsome (if_neg (Nat.not_lt.2 hlen)), album_arrives_iff (List.cons_ne_nil _ _) hlen]
          exact ⟨fun h _ => h, fun h => h hlen⟩

end

/-- The longest caption that the composer of an album admits. -/
def ALBUM_CAPTION_MAX_LENGTH : ℕ := 1024

instance : Rounding ℕ where
  round n := n

namespace Sample

def photo (name : String) : Uploaded ℕ where
  prepared := {
    mediaIvB64 := ascii "AAAAAAAAAAAAAAAA"
    wrapCt := ascii "AAAA"
    wrapIv := ascii "AAAA"
    mimeType := ascii "image/jpeg"
    workSize := 1000
    label := ascii name
    tinyPreview := none }
  filePath := ascii name
  segmentClass := .image
  options := ⟨none, none, none, none⟩

/-- An album of two photos, with a caption of 600 letters. -/
def captioned : Transmission ℕ :=
  .album [photo "a.jpg", photo "b.jpg"] (some (List.replicate 600 0x61))

end Sample

/-- A caption that the composer admits arrives cut. -/
theorem caption_cut : (List.replicate 600 0x61).length ≤ ALBUM_CAPTION_MAX_LENGTH ∧
    (Sample.captioned.envelope = some (.album (albumEnvelope
      [Sample.photo "a.jpg", Sample.photo "b.jpg"] (some (List.replicate 600 0x61))))) ∧
    ¬Sample.captioned.Arrives := by
  have hlong : ¬CaptionFits (some (List.replicate 600 0x61)) := by
    intro h
    have hle := h _ rfl
    have htrim : trim (List.replicate 600 0x61) = List.replicate 600 0x61 := by
      refine trim_eq_self_of_forall fun u hu => ?_
      rw [List.eq_of_mem_replicate hu]
      rfl
    rw [htrim, List.length_replicate] at hle
    omega
  refine ⟨by rw [List.length_replicate, ALBUM_CAPTION_MAX_LENGTH]; omega, rfl, fun h => ?_⟩
  have harrives := h _ rfl
  rw [album_arrives_iff (List.cons_ne_nil _ _) (by decide)] at harrives
  exact hlong harrives.2

end OneToThree.AttachmentEnvelope
