import Netconf.Proofs.Chunks

/-!
# Chunked messages end themselves

A chunked message says where it ends: what stands behind its end marker does not matter, and no
proper part at its start is a message. A cut inside a chunk leaves either no header or fewer octets
than the header announces (`readChunks_take_writeChunk`); a cut inside the end marker leaves neither
a header nor an end marker. Since written chunks are taken off one by one, a cut anywhere stops
reading in front of the end marker (`stopped_readChunks_take`).
-/

namespace Netconf.Framing

open Netconf.Text

/-- Part of the end marker is neither an end marker nor a header. -/
lemma readChunks_take_endOfChunks {j : ℕ} (hj : j < endOfChunks.length) (offset : ℕ) :
    readChunks offset (endOfChunks.take j)
      = ⟨[], some (.framing (.badHeader offset ((endOfChunks.take j).take 16)))⟩ := by
  have hparts : ∀ j < endOfChunks.length, endOfChunks.isPrefixOf (endOfChunks.take j) = false ∧
      chunkHeader? (endOfChunks.take j) = none := by decide
  obtain ⟨hend, hheader⟩ := hparts j hj
  exact readChunks_of_no_header hend hheader offset

/-- Part of a written chunk does not begin with the end marker. -/
lemma not_isPrefix_take_writeChunk {chunk : List UInt8} (h : IsChunk chunk) (j : ℕ) :
    endOfChunks.isPrefixOf ((writeChunk chunk).take j) = false := by
  rw [Bool.eq_false_iff]
  intro hprefix
  obtain ⟨rest, hrest⟩ := (List.isPrefixOf_iff_prefix.1 hprefix).trans (List.take_prefix j _)
  have hheader := chunkHeader?_writeChunk h.1 []
  rw [List.append_nil, ← hrest, chunkHeader?_endOfChunks] at hheader
  cases hheader

/-- A header in part of a written chunk is the header of the chunk, and behind it octets of the
chunk are missing. -/
lemma header_of_take_writeChunk {chunk digits body : List UInt8} {j : ℕ} (h : IsChunk chunk)
    (hj : j < (writeChunk chunk).length)
    (hheader : chunkHeader? ((writeChunk chunk).take j) = some (digits, body)) :
    digits = sizeNumeral chunk.length ∧ body.length < chunk.length := by
  -- with the octets that were cut off, the header is that of the whole chunk
  have hwhole : chunkHeader? (writeChunk chunk)
      = some (digits, body ++ (writeChunk chunk).drop j) := by
    obtain ⟨hdigits, htake⟩ := chunkHeader?_eq_some_iff.1 hheader
    refine chunkHeader?_eq_some_iff.2 ⟨hdigits, ?_⟩
    calc writeChunk chunk
        = (writeChunk chunk).take j ++ (writeChunk chunk).drop j := (List.take_append_drop _ _).symm
      _ = 0x0A :: 0x23 :: (digits ++ 0x0A :: (body ++ (writeChunk chunk).drop j)) := by
        rw [htake, List.cons_append, List.cons_append, List.append_assoc, List.cons_append]
  have hwritten := chunkHeader?_writeChunk h.1 []
  rw [List.append_nil, List.append_nil, hwhole] at hwritten
  obtain ⟨rfl, hbody⟩ := Prod.mk.inj (Option.some.inj hwritten)
  have hlength := congrArg List.length hbody
  rw [List.length_append, List.length_drop] at hlength
  exact ⟨rfl, by omega⟩

/-- A cut inside a written chunk ends reading at once: no header is left, or too few octets. -/
lemma readChunks_take_writeChunk {chunk : List UInt8} {j : ℕ} (h : IsChunk chunk)
    (hj : j < (writeChunk chunk).length) (offset : ℕ) :
    ∃ e, readChunks offset ((writeChunk chunk).take j) = ⟨[], some (.framing e)⟩ := by
  cases hheader : chunkHeader? ((writeChunk chunk).take j) with
  | none =>
    exact ⟨_, readChunks_of_no_header (not_isPrefix_take_writeChunk h j) hheader offset⟩
  | some header =>
    obtain ⟨digits, body⟩ := header
    obtain ⟨rfl, hshort⟩ := header_of_take_writeChunk h hj hheader
    refine ⟨.truncated chunk.length body.length, ?_⟩
    rw [readChunks_of_header hheader, sizeOfDigits_sizeNumeral,
      if_neg (length_sizeNumeral_le_of_le h.2).not_gt, if_neg h.2.not_gt, if_pos hshort]

/-- A cut anywhere in front of the end of a chunked message stops reading. -/
lemma stopped_readChunks_take {chunks : List (List UInt8)} (h : ∀ chunk ∈ chunks, IsChunk chunk)
    {j : ℕ} (hj : j < (writeChunks chunks ++ endOfChunks).length) (offset : ℕ) :
    ∃ e, (readChunks offset ((writeChunks chunks ++ endOfChunks).take j)).stopped
      = some (.framing e) := by
  induction chunks generalizing j offset with
  | nil =>
    rw [writeChunks_nil, List.nil_append] at hj ⊢
    exact ⟨_, congrArg ChunkReading.stopped (readChunks_take_endOfChunks hj offset)⟩
  | cons chunk chunks ih =>
    have hchunk := h chunk (by simp)
    rw [writeChunks_cons, List.append_assoc] at hj ⊢
    by_cases hcut : j < (writeChunk chunk).length
    · -- the cut is inside the first chunk
      obtain ⟨e, he⟩ := readChunks_take_writeChunk hchunk hcut offset
      rw [List.take_append_of_le_length hcut.le, he]
      exact ⟨e, rfl⟩
    · -- the first chunk is taken off, and the cut is behind it
      rw [List.length_append] at hj
      rw [List.take_append, List.take_of_length_le (by omega), readChunks_writeChunk hchunk]
      exact ih (fun c hc => h c (by simp [hc])) (by omega) _

/-- Two messages of the same chunks come to the same, with the same reports. -/
lemma IsChunked.decodeChunks_eq {bs bs' : List UInt8} {chunks : List (List UInt8)}
    (h : IsChunked bs chunks) (h' : IsChunked bs' chunks) : decodeChunks bs' = decodeChunks bs := by
  unfold decodeChunks
  rw [h.readChunks 0, h'.readChunks 0]

/-- **Chunked messages end themselves, and a message that is cut off is noticed.** Of a message that
a text comes out of, reading takes the chunks and the end marker, up to an offset. Whatever stands
behind that offset, the same comes out with the same reports, and if the message is cut off anywhere
in front of it, its framing is broken. -/
theorem decodeChunks_take {bs : List UInt8} {s : List Char} (h : (decodeChunks bs).result = .ok s) :
    ∃ e ≤ bs.length, bs.take e = writeChunks (readChunks 0 bs).chunks ++ endOfChunks ∧
      (∀ rest, decodeChunks (bs.take e ++ rest) = decodeChunks bs) ∧
      ∀ j < e, ∃ error, (decodeChunks (bs.take j)).result = .error (.framing error) := by
  have hchunked := isChunked_of_result_decodeChunks h
  obtain ⟨behind, hbehind⟩ := hchunked.form
  set message := writeChunks (readChunks 0 bs).chunks ++ endOfChunks with hmessage
  have hform : bs = message ++ behind := by
    rw [hmessage, List.append_assoc]
    exact hbehind
  have htake : bs.take message.length = message := by
    rw [hform, List.take_left]
  refine ⟨message.length, ?_, htake, ?_, ?_⟩
  · rw [hform]
    exact (List.prefix_append _ behind).length_le
  · intro rest
    have hother : IsChunked (message ++ rest) (readChunks 0 bs).chunks :=
      ⟨hchunked.sizes, rest, List.append_assoc _ _ _⟩
    rw [htake]
    exact hchunked.decodeChunks_eq hother
  · intro j hj
    obtain ⟨e, he⟩ := stopped_readChunks_take hchunked.sizes hj 0
    refine ⟨e, result_decodeChunks_of_stopped ?_⟩
    rw [hform, List.take_append_of_le_length hj.le]
    exact he

/-- A message of one chunk, which looks like an end marker itself, with more octets behind it. -/
def markerInChunk : List UInt8 :=
  [0x0A, 0x23, 0x34, 0x0A] ++ endOfChunks ++ endOfChunks ++ [0x0A, 0x23, 0x35]

theorem decodeChunks_take_markerInChunk :
    (decodeChunks markerInChunk).result = .ok "\n##\n".toList ∧
      ∃ e ≤ markerInChunk.length, markerInChunk.take e = writeChunks [endOfChunks] ++ endOfChunks ∧
        (∀ rest, decodeChunks (markerInChunk.take e ++ rest) = decodeChunks markerInChunk) ∧
        ∀ j < e, ∃ error,
          (decodeChunks (markerInChunk.take j)).result = .error (.framing error) := by
  have hchunked : IsChunked markerInChunk [endOfChunks] :=
    ⟨by decide, [0x0A, 0x23, 0x35], by decide⟩
  have hresult : (decodeChunks markerInChunk).result = .ok "\n##\n".toList := by
    have hpayload : [endOfChunks].flatten = Utf8.encode "\n##\n".toList := by decide
    rw [hchunked.result_decodeChunks, hpayload, Utf8.decode_encode]
    rfl
  have hchunks : (readChunks 0 markerInChunk).chunks = [endOfChunks] := by
    rw [hchunked.readChunks 0]
  rw [← hchunks]
  exact ⟨hresult, decodeChunks_take hresult⟩

end Netconf.Framing
