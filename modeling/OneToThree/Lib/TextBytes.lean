import OneToThree.Lib.Base64
import OneToThree.Lib.JsonUnits

/-!
# Texts and bytes

A text is encoded in UTF-8, and the decoder leaves out a byte order mark. Bytes are written in
base 64, in a text of the language.

* `TextBytes.decodeText_encodeText`: what is encoded and decoded comes back without its mark.
* `TextBytes.fromB64_toB64`: what is written in base 64 is read again.
-/

namespace TextBytes

abbrev Bytes := List UInt8

def encodeText (s : String) : Bytes := s.toByteArray.data.toList

/-- The decoder leaves out a byte order mark. -/
def withoutMark (s : String) : String :=
  if s.toList.head? = some '\uFEFF' then String.ofList s.toList.tail else s

/-- The text of bytes; `replaced` is what the decoder makes of bytes that are no UTF-8. -/
def decodeText (replaced : Bytes → String) (bytes : Bytes) : String :=
  ((String.fromUTF8? ⟨bytes.toArray⟩).map withoutMark).getD (replaced bytes)

def toB64 (bytes : Bytes) : JsText := (Base64.encode bytes).map Char.toNat

def fromB64 (b64 : JsText) : Option Bytes := Base64.decode (b64.map Char.ofNat)

theorem decodeText_encodeText (replaced : Bytes → String) (s : String) :
    decodeText replaced (encodeText s) = withoutMark s := by
  have hvalid : (⟨(encodeText s).toArray⟩ : ByteArray) = s.toByteArray := by
    rw [encodeText, Array.toArray_toList]
  have hread : String.fromUTF8? s.toByteArray = some s := by
    rw [String.fromUTF8?, dif_pos s.isValidUTF8]
    rfl
  rw [decodeText, hvalid, hread]
  rfl

theorem withoutMark_eq_self_iff {s : String} :
    withoutMark s = s ↔ s.toList.head? ≠ some '\uFEFF' := by
  rw [withoutMark]
  split_ifs with hmark
  · refine iff_of_false (fun heq => ?_) fun hnot => hnot hmark
    -- The text without its mark is shorter.
    have hlen := congrArg (fun s => s.toList.length) heq
    rw [String.toList_ofList, List.length_tail] at hlen
    cases hs : s.toList with
    | nil => rw [hs] at hmark; exact absurd hmark.symm (Option.some_ne_none _)
    | cons c l => rw [hs] at hlen; exact absurd hlen (by simp)
  · exact iff_of_true rfl hmark

theorem fromB64_toB64 (bytes : Bytes) : fromB64 (toB64 bytes) = some bytes := by
  have hid : Char.ofNat ∘ Char.toNat = id := by
    funext c
    exact Char.ofNat_toNat c
  rw [fromB64, toB64, List.map_map, hid, List.map_id, Base64.decode_encode]

theorem toB64_ne_nil {bytes : Bytes} (h : bytes ≠ []) : toB64 bytes ≠ [] := by
  intro hnil
  have hdecode := fromB64_toB64 bytes
  rw [hnil] at hdecode
  exact h (Option.some.inj hdecode).symm

end TextBytes
