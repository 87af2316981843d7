import Netconf.Proofs.ChunkedText

/-!
# Framing for version 1.1 and back

The framing of version 1.1 puts a text in one chunk, whatever its size, and counting takes the text
out again exactly if the size is one that a chunk may have. What is put in front of the empty text
is no header, since the size of a chunk is not zero, and the size of a text that is too long is
refused. Octets that are no text are not framed at all.
-/

namespace Netconf.Framing

open Netconf.Text

/-! ## What is framed -/

/-- Octets are framed as the text that they stand for. -/
lemma frame_octets_encode (s : List Char) (version : Option (List Char)) (settings : Settings) :
    frame (.octets (Utf8.encode s)) version settings = frame (.text s) version settings := by
  have htext : (Wire.octets (Utf8.encode s)).toText = (Wire.text s).toText := Utf8.decode_encode s
  rw [frame, frame, htext]

/-- Octets that are no text are refused for what is wrong with them, for whichever version. -/
lemma frame_of_decode_error {bs : List UInt8} {flaw : Utf8.Malformed}
    (h : Utf8.decode bs = .error flaw) {version : Option (List Char)} {settings : Settings}
    (hversion : (BaseVersion.ofText? (version.getD settings.baseVersion)).isSome = true) :
    frame (.octets bs) version settings = .error (.notText flaw) := by
  obtain ⟨v, hv⟩ := Option.isSome_iff_exists.1 hversion
  rw [frame, hv, Wire.toText, h]
  rfl

/-- The framing of version 1.1 is one written chunk and the end marker. -/
lemma encode_enclose_v1_1 (s : List Char) :
    Utf8.encode (BaseVersion.v1_1.enclose s) = writeChunk (Utf8.encode s) ++ endOfChunks := by
  rw [Reply.enclose_v1_1, encode_chunkedText, List.map_singleton, writeChunks_cons, writeChunks_nil,
    List.append_nil]

/-! ## What comes out of one chunk -/

/-- A chunk without octets has no header. -/
lemma result_decodeChunks_writeChunk_nil :
    (decodeChunks (writeChunk [] ++ endOfChunks)).result
      = .error (.framing (.badHeader 0 (writeChunk [] ++ endOfChunks))) := by
  have hend : endOfChunks.isPrefixOf (writeChunk [] ++ endOfChunks) = false := by decide
  apply result_decodeChunks_of_stopped
  rw [readChunks_of_no_header hend (by decide)]
  rfl

/-- A chunk that is too long is refused for its size, or for the digits of its size. -/
lemma result_decodeChunks_of_oversized {chunk : List UInt8} (h : maxChunkSize < chunk.length)
    (bs : List UInt8) :
    (decodeChunks (writeChunk chunk ++ bs)).result =
      .error (if maxSizeDigits < (sizeNumeral chunk.length).length then
          .sizeUnreadable (sizeNumeral chunk.length).length
        else .framing (.oversized chunk.length)) := by
  have hpos : 1 ≤ chunk.length := by omega
  apply result_decodeChunks_of_stopped
  rw [readChunks_of_header (chunkHeader?_writeChunk hpos bs), sizeOfDigits_sizeNumeral, if_pos h]
  split_ifs <;> rfl

/-- A text comes out of the chunk of its octets exactly if they may be sent as one chunk. -/
lemma result_decodeChunks_writeChunk_iff (s : List Char) :
    (decodeChunks (writeChunk (Utf8.encode s) ++ endOfChunks)).result = .ok s ↔
      IsChunk (Utf8.encode s) := by
  constructor
  · intro h
    constructor
    · by_contra hsmall
      have hnil : Utf8.encode s = [] := List.eq_nil_of_length_eq_zero (by omega)
      rw [hnil, result_decodeChunks_writeChunk_nil] at h
      cases h
    · by_contra hbig
      rw [result_decodeChunks_of_oversized (by omega)] at h
      cases h
  · intro h
    have hchunked : IsChunked (writeChunk (Utf8.encode s) ++ endOfChunks) [Utf8.encode s] := by
      refine ⟨List.forall_mem_singleton.2 h, [], ?_⟩
      rw [writeChunks_cons, writeChunks_nil, List.append_nil, List.append_nil]
    rw [hchunked.result_decodeChunks, List.flatten_singleton, Utf8.decode_encode]
    rfl

/-- **Counting undoes the framing of version 1.1 exactly for the sizes of chunks.** A text and its
octets are framed alike. The text comes out of the framed octets again exactly if it has octets and
not more than a chunk may have; the empty text leaves no header at the start, and a text that is too
long is refused. Octets that are no text are framed for neither version. -/
theorem decodeChunks_frame (m : List Char) (settings : Settings) :
    (∃ bs, frame (.text m) (some "1.1".toList) settings = .ok bs ∧
      frame (.octets (Utf8.encode m)) (some "1.1".toList) settings = .ok bs ∧
      ((decodeChunks bs).result = .ok m ↔
        1 ≤ (Utf8.encode m).length ∧ (Utf8.encode m).length ≤ maxChunkSize) ∧
      ((Utf8.encode m).length = 0 →
        (decodeChunks bs).result = .error (.framing (.badHeader 0 bs))) ∧
      (maxChunkSize < (Utf8.encode m).length →
        (decodeChunks bs).result =
          .error (if maxSizeDigits < (sizeNumeral (Utf8.encode m).length).length then
              .sizeUnreadable (sizeNumeral (Utf8.encode m).length).length
            else .framing (.oversized (Utf8.encode m).length)))) ∧
    ∀ octets, (¬ ∃ s, octets = Utf8.encode s) → ∀ version,
      (BaseVersion.ofText? (version.getD settings.baseVersion)).isSome = true →
        ∃ flaw, Utf8.decode octets = .error flaw ∧
          frame (.octets octets) version settings = .error (.notText flaw) := by
  refine ⟨⟨_, Reply.frame_text rfl m settings, ?_, ?_⟩, ?_⟩
  · rw [frame_octets_encode]
    exact Reply.frame_text rfl m settings
  · rw [encode_enclose_v1_1]
    refine ⟨result_decodeChunks_writeChunk_iff m, ?_, ?_⟩
    · intro hempty
      rw [List.eq_nil_of_length_eq_zero hempty]
      exact result_decodeChunks_writeChunk_nil
    · intro hbig
      exact result_decodeChunks_of_oversized hbig endOfChunks
  · intro octets hoctets version hversion
    cases hdecode : Utf8.decode octets with
    | ok s => exact absurd ⟨s, Utf8.decode_eq_ok_iff.1 hdecode⟩ hoctets
    | error flaw => exact ⟨flaw, rfl, frame_of_decode_error hdecode hversion⟩

-- what is reported on the framing of the empty text
example : (FramingError.badHeader 0 (writeChunk [] ++ endOfChunks)).message
    = "invalid chunk header at offset 0: b'\\n#0\\n\\n##\\n'".toList := by decide

/-- A text of one octet more than a chunk may have. -/
def longText : List Char := List.replicate (maxChunkSize + 1) 'a'

lemma length_encode_replicate (n : ℕ) : (Utf8.encode (List.replicate n 'a')).length = n := by
  induction n with
  | zero => rfl
  | succ n ih =>
    have hchar : (Utf8.encodeChar 'a').length = 1 := by decide
    rw [List.replicate_succ, Utf8.encode_cons, List.length_append, ih, hchar, Nat.add_comm]

/-- Both ends of the sizes that come out again, and half of a character of two octets. -/
theorem decodeChunks_frame_longText :
    (∃ bs, frame (.text []) (some "1.1".toList) (.ofEnvironment fun _ => none) = .ok bs ∧
      (decodeChunks bs).result = .error (.framing (.badHeader 0 bs))) ∧
    (∃ bs, frame (.text longText) (some "1.1".toList) (.ofEnvironment fun _ => none) = .ok bs ∧
      (decodeChunks bs).result = .error (.framing (.oversized (maxChunkSize + 1)))) ∧
    ∃ flaw, Utf8.decode [0xC3] = .error flaw ∧
      frame (.octets [0xC3]) none (.ofEnvironment fun _ => none) = .error (.notText flaw) := by
  have hlong : (Utf8.encode longText).length = maxChunkSize + 1 := length_encode_replicate _
  have hdigits : (sizeNumeral (maxChunkSize + 1)).length ≤ 10 :=
    length_sizeNumeral_le (by decide) (by decide)
  have hoctets : ¬ ∃ s, [0xC3] = Utf8.encode s := by
    rintro ⟨s, hs⟩
    have hdecode : (Utf8.decode [0xC3]).toOption = none := by decide +kernel
    rw [hs, Utf8.decode_encode] at hdecode
    cases hdecode
  obtain ⟨⟨bs, hframe, -, -, hnil, -⟩, -⟩ :=
    decodeChunks_frame [] (.ofEnvironment fun _ => none)
  obtain ⟨⟨bs', hframe', -, -, -, hbig⟩, hnot⟩ :=
    decodeChunks_frame longText (.ofEnvironment fun _ => none)
  refine ⟨⟨bs, hframe, hnil rfl⟩, ⟨bs', hframe', ?_⟩, hnot _ hoctets none (by decide)⟩
  rw [hbig (by rw [hlong]; exact Nat.lt_succ_self _), hlong,
    if_neg (hdigits.trans (by decide)).not_gt]

end Netconf.Framing
