import Netconf.Proofs.LineFraming

/-!
# Chunked messages as text

A chunked message whose chunks are texts is a text itself (`chunkedText`), so that it can be decoded
in both ways. Dropping marker lines takes the headers and the end marker off, and what it does to
the chunks it does to each by itself (`dropMarkerLines_chunkedText`): no line reaches from one chunk
into the next. Both ways agree exactly where no chunk has a line feed or starts like a marker.
-/

namespace Netconf.Framing

open Netconf.Text

/-- A text with a chunk header in front, which counts the octets of the text. -/
def chunkText (c : List Char) : List Char :=
  '\n' :: '#' :: (decimal (Utf8.encode c).length ++ '\n' :: c)

/-- The chunked message with a chunk for each text. -/
def chunkedText (cs : List (List Char)) : List Char := cs.flatMap chunkText ++ "\n##\n".toList

/-- Whether a text may be sent as one chunk. -/
def FitsChunk (c : List Char) : Prop := c ≠ [] ∧ (Utf8.encode c).length ≤ maxChunkSize

lemma chunkedText_cons (c : List Char) (cs : List (List Char)) :
    chunkedText (c :: cs) = chunkText c ++ chunkedText cs := by
  rw [chunkedText, List.flatMap_cons, List.append_assoc]
  rfl

/-- A chunk or the end marker begins on a line of its own. -/
lemma chunkedText_head (cs : List (List Char)) : ∃ rest, chunkedText cs = '\n' :: rest := by
  cases cs with
  | nil => exact ⟨_, rfl⟩
  | cons c cs => exact ⟨_, rfl⟩

/-! ## Octets -/

/-- The octets of a text with its header are the chunk of its octets. -/
lemma encode_chunkText (c : List Char) :
    Utf8.encode (chunkText c) = writeChunk (Utf8.encode c) := by
  rw [chunkText, Utf8.encode_cons, Utf8.encode_cons, Utf8.encode_append, Utf8.encode_cons]
  rfl

lemma encode_chunkedText (cs : List (List Char)) :
    Utf8.encode (chunkedText cs) = writeChunks (cs.map Utf8.encode) ++ endOfChunks := by
  induction cs with
  | nil => decide
  | cons c cs ih =>
    rw [chunkedText_cons, Utf8.encode_append, encode_chunkText, ih, List.map_cons,
      writeChunks_cons, List.append_assoc]

/-- The octets of texts make those of the whole text. -/
lemma flatten_map_encode (cs : List (List Char)) :
    (cs.map Utf8.encode).flatten = Utf8.encode cs.flatten := by
  induction cs with
  | nil => rfl
  | cons c cs ih => rw [List.map_cons, List.flatten_cons, ih, List.flatten_cons, Utf8.encode_append]

lemma FitsChunk.isChunk {c : List Char} (h : FitsChunk c) : IsChunk (Utf8.encode c) := by
  refine ⟨?_, h.2⟩
  obtain ⟨a, s, rfl⟩ := List.exists_cons_of_ne_nil h.1
  have hpos := List.length_pos_iff.2 (Utf8.encodeChar_ne_nil a)
  rw [Utf8.encode_cons, List.length_append]
  omega

lemma isChunked_chunkedText {cs : List (List Char)} (h : ∀ c ∈ cs, FitsChunk c) :
    IsChunked (Utf8.encode (chunkedText cs)) (cs.map Utf8.encode) where
  sizes := by
    intro chunk hchunk
    obtain ⟨c, hc, rfl⟩ := List.mem_map.1 hchunk
    exact (h c hc).isChunk
  form := ⟨[], by rw [encode_chunkedText, List.append_nil]⟩

/-! ## Lines -/

lemma not_mem_decimal (n : ℕ) : '\n' ∉ decimal n := by
  intro hmem
  have hdigit := Nat.isDigit_of_mem_toDigits (by omega) (by omega) hmem
  cases hdigit

/-- **Chunks are normalised one by one.** The marker lines of a chunked message are those of its
framing and those of its chunks. -/
lemma dropMarkerLines_chunkedText (cs : List (List Char)) :
    dropMarkerLines (chunkedText cs) = cs.flatMap dropMarkerLines := by
  induction cs with
  | nil => rfl
  | cons c cs ih =>
    -- the line feed in front of what follows ends the last line of the chunk
    obtain ⟨rest, hrest⟩ := chunkedText_head cs
    have hchunk : chunkText c ++ chunkedText cs
        = '\n' :: (('#' :: decimal (Utf8.encode c).length) ++ '\n' :: (c ++ '\n' :: rest)) := by
      rw [hrest, chunkText]
      simp
    rw [chunkedText_cons, hchunk, dropMarkerLines_lineFeed, dropMarkerLines_append_lineFeed,
      dropMarkerLines_marker (not_mem_decimal _), List.nil_append,
      dropMarkerLines_append_lineFeed, ← dropMarkerLines_lineFeed rest, ← hrest, ih,
      List.flatMap_cons]

/-- Nothing is lost of texts together exactly where nothing is lost of any. -/
lemma flatMap_dropMarkerLines_eq_iff {cs : List (List Char)} :
    cs.flatMap dropMarkerLines = cs.flatten ↔ ∀ c ∈ cs, dropMarkerLines c = c := by
  induction cs with
  | nil => simp
  | cons c cs ih =>
    rw [List.flatMap_cons, List.flatten_cons, List.forall_mem_cons, ← ih]
    constructor
    · intro h
      -- neither part gets longer, so each keeps its length
      have hfirst := (dropMarkerLines_sublist c).length_le
      have hmore : (cs.flatMap dropMarkerLines).length ≤ cs.flatten.length := by
        rw [← List.flatMap_id]
        exact (List.Sublist.flatMap_right cs fun c _ => dropMarkerLines_sublist c).length_le
      have hlen := congrArg List.length h
      rw [List.length_append, List.length_append] at hlen
      exact List.append_inj h (by omega)
    · rintro ⟨hfirst, hmore⟩
      rw [hfirst, hmore]

end Netconf.Framing

namespace Netconf.Reply

open Netconf.Framing Netconf.Text

/-- **Lines may stand for chunks exactly where it is safe.** Of a chunked message, dropping marker
lines leaves what it leaves of each chunk, and counting gives the chunks themselves. Both are the
same text exactly if no chunk has a line feed or starts with a number sign, and then decoding has
the same outcome either way. -/
theorem decode_chunkedText {cs : List (List Char)} (h : ∀ c ∈ cs, FitsChunk c) :
    dropMarkerLines (chunkedText cs) = cs.flatMap dropMarkerLines ∧
      (decodeChunks (Wire.text (chunkedText cs)).toOctets).result = .ok cs.flatten ∧
      (dropMarkerLines (chunkedText cs) = cs.flatten ↔
        ∀ c ∈ cs, '\n' ∉ c ∧ c.head? ≠ some '#') ∧
      ((∀ c ∈ cs, '\n' ∉ c ∧ c.head? ≠ some '#') → ∀ o : DecodeOptions,
        (decode { o with strictFraming := some false } (.text (chunkedText cs))).result
          = (decode { o with strictFraming := some true } (.text (chunkedText cs))).result) := by
  have hchunked := isChunked_chunkedText h
  have hflatten := flatten_map_encode cs
  have hsafe : dropMarkerLines (chunkedText cs) = cs.flatten ↔
      ∀ c ∈ cs, '\n' ∉ c ∧ c.head? ≠ some '#' := by
    rw [dropMarkerLines_chunkedText, flatMap_dropMarkerLines_eq_iff]
    simp only [dropMarkerLines_eq_self_iff]
  refine ⟨dropMarkerLines_chunkedText cs, ?_, hsafe, ?_⟩
  · rw [Wire.toOctets, hchunked.result_decodeChunks, hflatten, Utf8.decode_encode]
    rfl
  · intro hall o
    -- either way the text that is read is that of the chunks, without the end marker
    have hcounted : (unframe (.text (chunkedText cs)) true).result
        = .ok (dropEndMarker cs.flatten) := result_unframe_of_isChunked hchunked hflatten
    have hlines : decode { o with strictFraming := some false } (.text (chunkedText cs))
        = decodeText { o with strictFraming := some false } (dropEndMarker cs.flatten) := by
      rw [decode_of_toText rfl rfl, hsafe.2 hall]
    rw [hlines, decode, Logged.result_andThen]
    show _ = Except.bind (unframe (.text (chunkedText cs)) true).result _
    rw [hcounted, result_decodeText]
    exact (result_decodeText _ _).symm

-- a chunk that starts with a number sign is taken for a line of the framing
example : dropMarkerLines (chunkedText ["a".toList, "#b".toList]) = "a".toList := by decide

/-- A reply cut inside a tag and in front of a character of two octets. -/
def replyTexts : List (List Char) := ["<rpc-reply".toList, ">".toList, "é</rpc-reply>".toList]

theorem decode_chunkedText_replyTexts :
    (∀ c ∈ replyTexts, FitsChunk c) ∧ (∀ c ∈ replyTexts, '\n' ∉ c ∧ c.head? ≠ some '#') ∧
      dropMarkerLines (chunkedText replyTexts) = "<rpc-reply>é</rpc-reply>".toList ∧
      (decode ⟨none, "7".toList, some false, .ofEnvironment fun _ => none⟩
        (.text (chunkedText replyTexts))).result
        = (decode ⟨none, "7".toList, some true, .ofEnvironment fun _ => none⟩
          (.text (chunkedText replyTexts))).result := by
  have hfits : ∀ c ∈ replyTexts, FitsChunk c := by
    intro c hc
    have hall : replyTexts.all fun c =>
        !c.isEmpty && decide ((Utf8.encode c).length ≤ maxChunkSize) := by decide
    have := List.all_eq_true.1 hall c hc
    simpa [FitsChunk] using this
  have hsafe : ∀ c ∈ replyTexts, '\n' ∉ c ∧ c.head? ≠ some '#' := by decide
  have hflatten : replyTexts.flatten = "<rpc-reply>é</rpc-reply>".toList := by decide
  obtain ⟨-, -, hiff, hdecode⟩ := decode_chunkedText hfits
  exact ⟨hfits, hsafe, (hiff.2 hsafe).trans hflatten,
    hdecode hsafe ⟨none, "7".toList, none, .ofEnvironment fun _ => none⟩⟩

/-- The framing of version 1.1 is a chunked message of one chunk, which may even be empty. -/
lemma enclose_v1_1 (s : List Char) : BaseVersion.v1_1.enclose s = chunkedText [s] := by
  simp [BaseVersion.enclose, chunkedText, chunkText]

/-- **Framing for version 1.1 does not show.** Whatever a text is, it is framed, and where chunks
are not counted the framed octets decode to what the text itself decodes to, with the same
reports. -/
theorem decode_frame {o : DecodeOptions} (hlines : o.countsChunks = false) (s : List Char)
    (settings : Settings) :
    ∃ bs, frame (.text s) (some "1.1".toList) settings = .ok bs ∧
      decode o (.octets bs) = decode o (.text s) := by
  refine ⟨_, frame_text rfl s settings, ?_⟩
  have htext : (Wire.octets (Utf8.encode (BaseVersion.v1_1.enclose s))).toText
      = .ok (BaseVersion.v1_1.enclose s) := Utf8.decode_encode _
  have hsame : dropMarkerLines (BaseVersion.v1_1.enclose s) = dropMarkerLines s := by
    rw [enclose_v1_1, dropMarkerLines_chunkedText, List.flatMap_singleton]
  rw [decode_of_toText hlines htext, hsame, decode_of_toText hlines rfl]

/-- A text that begins and ends with lines that look like framing. -/
def textWithMarkers : List Char := "#4\n<rpc-reply/>\n##".toList

theorem decode_frame_textWithMarkers :
    ∃ bs, frame (.text textWithMarkers) (some "1.1".toList) (.ofEnvironment fun _ => none) = .ok bs ∧
      decode ⟨some true, "7".toList, none, .ofEnvironment fun _ => none⟩ (.octets bs)
        = decode ⟨some true, "7".toList, none, .ofEnvironment fun _ => none⟩
          (.text textWithMarkers) :=
  decode_frame (by decide) textWithMarkers (.ofEnvironment fun _ => none)

end Netconf.Reply
