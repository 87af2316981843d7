import Netconf.Proofs.Utf8
import Netconf.Reply.Decode

/-!
# Messages that are text

A message may be handed over as text or as octets. A text is looked at in three places: for what it
begins with, for the chunks in it, and for its lines. The first two go through its octets and the
third does not, so that a text and its octets come to the same because no octets but those of a line
feed and a number sign are taken for a chunk (`looksChunked_encode_iff`) and because octets are read
as the text that they were written from.
-/

namespace Netconf.Reply

open Netconf.Framing

/-- The octets of a text look like chunks exactly where the text itself begins like a chunk. -/
lemma looksChunked_encode_iff (x : List Char) :
    looksChunked (Utf8.encode x) = true ↔ "\n#".toList <+: x := by
  have hoctets : [0x0A, 0x23] = Utf8.encode "\n#".toList := by decide
  rw [looksChunked, List.isPrefixOf_iff_prefix, hoctets, Utf8.isPrefix_encode_iff]

/-- The octets of a text are read as the text. -/
lemma textOf_octets_encode (x : List Char) :
    textOf (.octets (Utf8.encode x)) = textOf (.text x) := by
  have htext : (Wire.octets (Utf8.encode x)).toText = (Wire.text x).toText := Utf8.decode_encode x
  rw [textOf, textOf, htext]
  rfl

/-- The framing is taken off a text and its octets alike, with the same reports. -/
lemma unframe_octets_encode (x : List Char) (countsChunks : Bool) :
    unframe (.octets (Utf8.encode x)) countsChunks = unframe (.text x) countsChunks := by
  have hoctets : (Wire.octets (Utf8.encode x)).toOctets = (Wire.text x).toOctets := rfl
  rw [unframe, unframe, hoctets, textOf_octets_encode]

/-- **A text and its octets decode alike**: to the same reply with the same error to deal with, or
to the same refusal, and with the same reports. Whether chunks are looked for in either is settled
by the first two characters of the text. -/
theorem decode_octets_encode (o : DecodeOptions) (x : List Char) :
    decode o (.octets (Utf8.encode x)) = decode o (.text x) ∧
      (looksChunked (Wire.text x).toOctets = true ↔ "\n#".toList <+: x) := by
  refine ⟨?_, looksChunked_encode_iff x⟩
  rw [decode, decode, unframe_octets_encode]

-- a line feed alone is not taken for the start of a chunk, nor is a character of several octets
example : looksChunked (Utf8.encode "\n".toList) = false ∧
    looksChunked (Utf8.encode "\nč#".toList) = false := by decide

end Netconf.Reply
