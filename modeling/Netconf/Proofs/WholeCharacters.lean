import Netconf.Proofs.ChunkedText
import Netconf.Proofs.Stopping

/-!
# Chunks of a text

The sizes of chunks count octets, so that a chunk may end inside a character. In a text this does
not go unnoticed: behind such a chunk stands an octet that continues the character, and with it
neither a header nor the end marker begins. An octet of ASCII is a character of its own wherever it
stands, and what is in front of it is a text (`Utf8.exists_of_encode_eq_append`). Chunk by chunk it
follows that all chunks up to the end marker are texts (`exists_of_encode_eq_writeChunks`).
-/

namespace Netconf.Framing

open Netconf.Text

/-- A chunk in a text is a text, if an octet of ASCII stands behind it. -/
lemma exists_of_encode_eq_writeChunk {s : List Char} {chunk rest : List UInt8} {b : UInt8}
    (hb : b.toNat < 0x80) (h : Utf8.encode s = writeChunk chunk ++ b :: rest) :
    ∃ c u, chunk = Utf8.encode c ∧ s = chunkText c ++ u ∧ b :: rest = Utf8.encode u := by
  set header := '\n' :: '#' :: (decimal chunk.length ++ ['\n']) with hheader
  have hchunk : writeChunk chunk = Utf8.encode header ++ chunk := by
    rw [hheader, Utf8.encode_cons, Utf8.encode_cons, Utf8.encode_append, Utf8.encode_cons]
    simp only [writeChunk, sizeNumeral, List.append_assoc]
    rfl
  rw [hchunk, List.append_assoc] at h
  -- the header is part of the text, and so is what stands behind it
  obtain ⟨behind, rfl⟩ := Utf8.isPrefix_encode_iff.1 ⟨_, h.symm⟩
  rw [Utf8.encode_append, List.append_cancel_left_eq] at h
  obtain ⟨c, u, rfl, rfl, hu⟩ := Utf8.exists_of_encode_eq_append hb h
  refine ⟨c, u, rfl, ?_, hu⟩
  rw [hheader, chunkText]
  simp only [List.cons_append, List.append_assoc, List.nil_append]

/-- A chunk begins with an octet of ASCII. -/
lemma exists_writeChunks_append {b : UInt8} (hb : b.toNat < 0x80) (chunks : List (List UInt8))
    (rest : List UInt8) :
    ∃ b' rest', writeChunks chunks ++ b :: rest = b' :: rest' ∧ b'.toNat < 0x80 := by
  cases chunks with
  | nil => exact ⟨b, rest, rfl, hb⟩
  | cons chunk chunks => exact ⟨0x0A, _, rfl, by decide⟩

/-- Chunks in a text are texts, if an octet of ASCII stands behind them. -/
lemma exists_of_encode_eq_writeChunks {s : List Char} {chunks : List (List UInt8)}
    {rest : List UInt8} {b : UInt8} (hb : b.toNat < 0x80)
    (h : Utf8.encode s = writeChunks chunks ++ b :: rest) :
    ∃ (cs : List (List Char)) (u : List Char), chunks = cs.map Utf8.encode ∧
      s = cs.flatMap chunkText ++ u ∧ b :: rest = Utf8.encode u := by
  induction chunks generalizing s with
  | nil => exact ⟨[], s, rfl, rfl, h.symm⟩
  | cons chunk chunks ih =>
    obtain ⟨b', rest', hmore, hb'⟩ := exists_writeChunks_append hb chunks rest
    rw [writeChunks_cons, List.append_assoc, hmore] at h
    obtain ⟨c, behind, rfl, rfl, hbehind⟩ := exists_of_encode_eq_writeChunk hb' h
    obtain ⟨cs, u, rfl, rfl, hu⟩ := ih (hbehind.symm.trans hmore.symm)
    exact ⟨c :: cs, u, rfl, by rw [List.flatMap_cons, List.append_assoc], hu⟩

/-- A text that is a chunked message is one whose chunks are texts. -/
lemma IsChunked.exists_texts {s : List Char} {chunks : List (List UInt8)}
    (h : IsChunked (Utf8.encode s) chunks) :
    ∃ cs : List (List Char), chunks = cs.map Utf8.encode ∧ chunkedText cs <+: s ∧
      (decodeChunks (Utf8.encode s)).result = .ok cs.flatten := by
  have hmarker : endOfChunks = Utf8.encode "\n##\n".toList := by decide
  obtain ⟨rest, hrest⟩ := h.form
  obtain ⟨cs, u, rfl, hs, hu⟩ := exists_of_encode_eq_writeChunks (by decide) hrest
  -- the end marker is text as well
  have hend : Utf8.encode "\n##\n".toList <+: Utf8.encode u := ⟨rest, by rw [← hmarker]; exact hu⟩
  obtain ⟨v, rfl⟩ := Utf8.isPrefix_encode_iff.1 hend
  refine ⟨cs, rfl, ⟨v, ?_⟩, ?_⟩
  · rw [hs, chunkedText, List.append_assoc]
  · rw [h.result_decodeChunks, flatten_map_encode, Utf8.decode_encode]
    rfl

/-- **Counting octets splits no character of a text.** A text is never refused because its chunks
are no text. Where reading comes to the end marker, the text begins with the chunked message of some
texts: these are the chunks that were read, and together they are what comes out. -/
theorem decodeChunks_text (x : List Char) :
    (∀ reason,
      (decodeChunks (Wire.text x).toOctets).result ≠ .error (.framing (.notText reason))) ∧
    ((readChunks 0 (Wire.text x).toOctets).stopped = none →
      ∃ cs : List (List Char), (readChunks 0 (Wire.text x).toOctets).chunks = cs.map Utf8.encode ∧
        chunkedText cs <+: x ∧
        (decodeChunks (Wire.text x).toOctets).result = .ok cs.flatten) := by
  refine ⟨?_, ?_⟩
  · intro reason hreason
    obtain ⟨chunks, behind, h⟩ := exists_isLongest (Wire.text x).toOctets
    -- only behind the end marker would the chunks be looked at as text
    obtain ⟨rest, hrest⟩ := h.endOfChunks_of_notText hreason
    have hchunked : IsChunked (Utf8.encode x) chunks := ⟨h.sizes, rest, by rw [hrest]; exact h.form⟩
    obtain ⟨cs, -, -, hresult⟩ := hchunked.exists_texts
    rw [Wire.toOctets, hresult] at hreason
    cases hreason
  · intro hstopped
    exact (isChunked_of_readChunks hstopped).exists_texts

-- a size that ends a chunk inside a character leaves no header behind the chunk
example : (decodeChunks (Utf8.encode "\n#1\né\n##\n".toList)).result
    = .error (.framing (.badHeader 5 [0xA9, 0x0A, 0x23, 0x23, 0x0A])) := by decide +kernel

/-- A chunked message of two texts, the first with a character of two octets and what looks like a
header, with a character of three octets behind its end marker. -/
def messageOfTexts : List Char := chunkedText ["é\n#1\n".toList, "ok".toList] ++ ['€']

theorem decodeChunks_text_messageOfTexts :
    (readChunks 0 (Wire.text messageOfTexts).toOctets).stopped = none ∧
      (∃ cs : List (List Char),
        (readChunks 0 (Wire.text messageOfTexts).toOctets).chunks = cs.map Utf8.encode ∧
          chunkedText cs <+: messageOfTexts ∧
          (decodeChunks (Wire.text messageOfTexts).toOctets).result = .ok cs.flatten) := by
  have hchunked : IsChunked (Wire.text messageOfTexts).toOctets
      (["é\n#1\n".toList, "ok".toList].map Utf8.encode) := by
    refine ⟨by decide, Utf8.encode ['€'], ?_⟩
    rw [Wire.toOctets, messageOfTexts, Utf8.encode_append, encode_chunkedText, List.append_assoc]
  have hstopped : (readChunks 0 (Wire.text messageOfTexts).toOctets).stopped = none := by
    rw [hchunked.readChunks 0]
  exact ⟨hstopped, (decodeChunks_text messageOfTexts).2 hstopped⟩

end Netconf.Framing
