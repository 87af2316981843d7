import Netconf.Proofs.Chunks

/-!
# Where reading stops

Reading takes complete chunks off as long as there are any, and reports each. What it finds behind
the last of them decides how it ends: the end marker, or one of the four things that stop it
(`IsLongest.cases`). The chunks in front are the longest run of complete chunks that the octets
begin with (`IsLongest`), so that the offset of a failure and the reports follow from the octets
alone (`decodeChunks_of_longest`).
-/

namespace Netconf.Framing

open Netconf.Text

/-! ## The chunks in front -/

/-- Whether the chunks are the longest run of complete chunks that the octets begin with, and what
stands behind them. -/
structure IsLongest (bs : List UInt8) (chunks : List (List UInt8)) (behind : List UInt8) :
    Prop where
  /-- Each chunk may be sent as one. -/
  sizes : ∀ chunk ∈ chunks, IsChunk chunk
  form : bs = writeChunks chunks ++ behind
  /-- Every other run is the beginning of this one. -/
  longest : ∀ others, (∀ chunk ∈ others, IsChunk chunk) → writeChunks others <+: bs →
    others <+: chunks

/-- There is only one longest run. -/
lemma IsLongest.unique {bs behind behind' : List UInt8} {chunks chunks' : List (List UInt8)}
    (h : IsLongest bs chunks behind) (h' : IsLongest bs chunks' behind') :
    chunks = chunks' ∧ behind = behind' := by
  have hle := h'.longest chunks h.sizes ⟨behind, h.form.symm⟩
  have hge := h.longest chunks' h'.sizes ⟨behind', h'.form.symm⟩
  obtain rfl : chunks = chunks' := hle.eq_of_length (le_antisymm hle.length_le hge.length_le)
  exact ⟨rfl, List.append_cancel_left (h.form.symm.trans h'.form)⟩

/-- A run is the longest if no complete chunk stands behind it. -/
lemma isLongest_of_forall_ne {chunks : List (List UInt8)} {behind : List UInt8}
    (hsizes : ∀ chunk ∈ chunks, IsChunk chunk)
    (hbehind : ∀ chunk more, IsChunk chunk → behind ≠ writeChunk chunk ++ more) :
    IsLongest (writeChunks chunks ++ behind) chunks behind where
  sizes := hsizes
  form := rfl
  longest := by
    intro others hothers hprefix
    -- on the other run, whose chunks are those of this one as long as there are any
    induction others generalizing chunks with
    | nil => exact List.nil_prefix
    | cons other others ih =>
      obtain ⟨rest, hrest⟩ := hprefix
      have hother := hothers other List.mem_cons_self
      rw [writeChunks_cons, List.append_assoc] at hrest
      cases chunks with
      | nil => exact absurd hrest.symm (hbehind other _ hother)
      | cons chunk chunks =>
        rw [writeChunks_cons, List.append_assoc] at hrest
        obtain ⟨rfl, hmore⟩ :=
          writeChunk_append_inj hother (hsizes chunk List.mem_cons_self) hrest
        rw [List.prefix_cons_inj]
        apply ih
        · exact fun c hc => hsizes c (List.mem_cons_of_mem _ hc)
        · exact fun c hc => hothers c (List.mem_cons_of_mem _ hc)
        · exact ⟨rest, hmore⟩

/-- Behind the longest run no chunk is read. -/
lemma IsLongest.ne_writeChunk {bs behind : List UInt8} {chunks : List (List UInt8)}
    (h : IsLongest bs chunks behind) {chunk : List UInt8} (hchunk : IsChunk chunk)
    (more : List UInt8) : behind ≠ writeChunk chunk ++ more := by
  rintro rfl
  have hrun := h.longest (chunks ++ [chunk])
    (by
      intro c hc
      rcases List.mem_append.1 hc with hc | hc
      · exact h.sizes c hc
      · rwa [List.mem_singleton.1 hc])
    ⟨more, by rw [h.form, writeChunks, List.flatMap_append, List.flatMap_singleton,
      List.append_assoc, writeChunks]⟩
  have hlength := hrun.length_le
  rw [List.length_append, List.length_singleton] at hlength
  omega

/-- A run is the longest if reading takes no chunk off behind it. -/
lemma isLongest_of_readChunks {offset : ℕ} {chunks : List (List UInt8)} {behind : List UInt8}
    (hsizes : ∀ chunk ∈ chunks, IsChunk chunk)
    (hbehind : (readChunks offset behind).chunks = []) :
    IsLongest (writeChunks chunks ++ behind) chunks behind := by
  apply isLongest_of_forall_ne hsizes
  rintro chunk more hchunk rfl
  rw [readChunks_writeChunk hchunk] at hbehind
  cases hbehind

/-- All octets begin with a longest run. -/
lemma exists_isLongest (bs : List UInt8) : ∃ chunks behind, IsLongest bs chunks behind := by
  obtain ⟨chunks, rest, hchunks, rfl, hrest⟩ := exists_of_readChunks 0 bs
  refine ⟨chunks, rest, ?_⟩
  rcases hrest with ⟨behind, rfl⟩ | ⟨e, he⟩
  · exact isLongest_of_readChunks hchunks
      (congrArg ChunkReading.chunks (readChunks_endOfChunks 0 behind))
  · exact isLongest_of_readChunks hchunks (congrArg ChunkReading.chunks (readChunks_of_stops he))

/-- Behind the longest run stands the end marker or what stops reading. -/
lemma IsLongest.cases {bs behind : List UInt8} {chunks : List (List UInt8)}
    (h : IsLongest bs chunks behind) (offset : ℕ) :
    endOfChunks <+: behind ∨ ∃ e, Stops offset behind e := by
  rcases readChunks_cases offset behind with ⟨rest, hrest⟩ | ⟨chunk, more, hchunk, hmore⟩ | ⟨e, he⟩
  · exact Or.inl ⟨rest, hrest.symm⟩
  · exact absurd hmore (h.ne_writeChunk hchunk more)
  · exact Or.inr ⟨e, he⟩

/-- Reading gives the longest run, and stops for what stops it there. -/
lemma IsLongest.readChunks {bs behind : List UInt8} {chunks : List (List UInt8)} {e : ChunkError}
    (h : IsLongest bs chunks behind) (he : Stops (writeChunks chunks).length behind e) :
    Framing.readChunks 0 bs = ⟨chunks, some e⟩ := by
  rw [h.form, readChunks_writeChunks_append h.sizes, Nat.zero_add, readChunks_of_stops he,
    List.append_nil]

/-- Reading gives the longest run whatever stands behind it. -/
lemma IsLongest.chunks_readChunks {bs behind : List UInt8} {chunks : List (List UInt8)}
    (h : IsLongest bs chunks behind) : (Framing.readChunks 0 bs).chunks = chunks := by
  rcases h.cases (writeChunks chunks).length with ⟨rest, rfl⟩ | ⟨e, he⟩
  · rw [h.form, readChunks_writeChunks h.sizes]
  · rw [h.readChunks he]

/-! ## How a message fails -/

/-- Whether a message is refused for broken framing, with this report. -/
def FailsWith (bs : List UInt8) (e : FramingError) (report : List Char) : Prop :=
  (decodeChunks bs).result = .error (.framing e) ∧ e.message = report

lemma IsLongest.failsWith {bs behind : List UInt8} {chunks : List (List UInt8)} {e : FramingError}
    (h : IsLongest bs chunks behind)
    (he : Stops (writeChunks chunks).length behind (.framing e)) : FailsWith bs e e.message :=
  ⟨result_decodeChunks_of_stopped (congrArg ChunkReading.stopped (h.readChunks he)), rfl⟩

/-- A message is never refused as no text in front of the end marker. -/
lemma IsLongest.endOfChunks_of_notText {bs behind : List UInt8} {chunks : List (List UInt8)}
    (h : IsLongest bs chunks behind) {reason : Utf8.Malformed}
    (hreason : (decodeChunks bs).result = .error (.framing (.notText reason))) :
    endOfChunks <+: behind := by
  rcases h.cases (writeChunks chunks).length with hend | ⟨e, he⟩
  · exact hend
  · rw [result_decodeChunks_of_stopped (congrArg ChunkReading.stopped (h.readChunks he))] at hreason
    obtain rfl : e = .framing (.notText reason) := Except.error.inj hreason
    cases he

/-- **How reading a message ends is decided behind its complete chunks.** Of every message the
longest run of complete chunks is read, and each chunk is reported in order, whatever comes of the
message. If neither the end marker nor a header stands behind them, the report names the offset and
the octets there. A size beyond the largest is reported with the largest, if its digits can be read.
For a size that a chunk may have, too few octets are left, and their number is reported. Octets that
are no text are only refused behind the end marker. -/
theorem decodeChunks_of_longest (bs : List UInt8) :
    ∃ chunks behind, IsLongest bs chunks behind ∧
      (decodeChunks bs).entries = chunks.map (fun chunk => ⟨.debug, .framing,
        "decoded chunk of ".toList ++ decimal chunk.length ++ " bytes".toList⟩) ∧
      (¬ endOfChunks <+: behind → (∀ n body, 0 < n → behind ≠ header n ++ body) →
        FailsWith bs (.badHeader (writeChunks chunks).length (behind.take 16))
          ("invalid chunk header at offset ".toList ++ decimal (writeChunks chunks).length ++
            ": ".toList ++ quotedOctets (behind.take 16))) ∧
      (∀ n body, behind = header n ++ body → maxChunkSize < n →
        (sizeNumeral n).length ≤ maxSizeDigits →
        FailsWith bs (.oversized n)
          ("chunk size ".toList ++ decimal n ++ " exceeds maximum 4294967295".toList)) ∧
      (∀ n body, behind = header n ++ body → 0 < n → n ≤ maxChunkSize →
        body.length < n ∧
        FailsWith bs (.truncated n body.length)
          ("received invalid chunk size expected=".toList ++ decimal n ++
            " received=".toList ++ decimal body.length)) ∧
      ∀ reason, (decodeChunks bs).result = .error (.framing (.notText reason)) →
        endOfChunks <+: behind := by
  obtain ⟨chunks, behind, h⟩ := exists_isLongest bs
  refine ⟨chunks, behind, h, ?_, ?_, ?_, ?_, ?_⟩
  · show (readChunks 0 bs).chunks.map chunkEntry = _
    rw [h.chunks_readChunks]
    rfl
  · intro hend hheader
    exact h.failsWith (.noHeader hend hheader)
  · intro n body hform hsize hdigits
    have hmaximum : " exceeds maximum ".toList ++ decimal maxChunkSize
        = " exceeds maximum 4294967295".toList := by decide
    obtain ⟨hresult, -⟩ := h.failsWith (.oversized hform hdigits hsize)
    refine ⟨hresult, ?_⟩
    rw [← hmaximum, ← List.append_assoc]
    rfl
  · intro n body hform hn hsize
    have hshort : body.length < n := by
      by_contra hlong
      have hlength : (body.take n).length = n := by
        rw [List.length_take]
        omega
      have hchunk : IsChunk (body.take n) := ⟨by omega, by omega⟩
      -- one more complete chunk would follow
      apply h.ne_writeChunk hchunk (body.drop n)
      rw [writeChunk_eq, hlength, List.append_assoc, List.take_append_drop, hform]
    exact ⟨hshort, h.failsWith (.truncated hn hform hsize hshort)⟩
  · intro reason hreason
    exact h.endOfChunks_of_notText hreason

/-- A message that goes on like this behind a complete chunk, which looks like a header itself. -/
def behindChunk (behind : List UInt8) : List UInt8 := writeChunks [header 1] ++ behind

lemma isLongest_behindChunk {behind : List UInt8} {e : ChunkError} (h : Stops 8 behind e) :
    IsLongest (behindChunk behind) [header 1] behind :=
  isLongest_of_readChunks (List.forall_mem_singleton.2 (by decide))
    (congrArg ChunkReading.chunks (readChunks_of_stops h))

/-- A leading zero, a size beyond the largest and a chunk of which octets are missing. -/
theorem decodeChunks_of_longest_behindChunk :
    ((decodeChunks (behindChunk [0x0A, 0x23, 0x30, 0x35, 0x0A])).entries
        = [⟨.debug, .framing, "decoded chunk of 4 bytes".toList⟩] ∧
      FailsWith (behindChunk [0x0A, 0x23, 0x30, 0x35, 0x0A])
        (.badHeader 8 [0x0A, 0x23, 0x30, 0x35, 0x0A])
        "invalid chunk header at offset 8: b'\\n#05\\n'".toList) ∧
    FailsWith (behindChunk (header 4294967296 ++ [])) (.oversized 4294967296)
      "chunk size 4294967296 exceeds maximum 4294967295".toList ∧
    FailsWith (behindChunk (header 5 ++ [0x61])) (.truncated 5 1)
      "received invalid chunk size expected=5 received=1".toList := by
  have hend : ¬ endOfChunks <+: [0x0A, 0x23, 0x30, 0x35, 0x0A] := by decide
  have hheader : ∀ n body, 0 < n → ([0x0A, 0x23, 0x30, 0x35, 0x0A] : List UInt8)
      ≠ header n ++ body := chunkHeader?_eq_none_iff.1 (by decide)
  have hdigits : (sizeNumeral 4294967296).length ≤ maxSizeDigits :=
    (length_sizeNumeral_le (k := 10) (by decide) (by decide)).trans (by decide)
  refine ⟨?_, ?_, ?_⟩
  · obtain ⟨chunks, behind, h, hentries, hbad, -⟩ :=
      decodeChunks_of_longest (behindChunk [0x0A, 0x23, 0x30, 0x35, 0x0A])
    obtain ⟨rfl, rfl⟩ := h.unique (isLongest_behindChunk (.noHeader hend hheader))
    obtain ⟨hresult, hreport⟩ := hbad hend hheader
    refine ⟨?_, hresult, hreport.trans (by decide +kernel)⟩
    rw [hentries]
    decide +kernel
  · obtain ⟨chunks, behind, h, -, -, hbig, -⟩ :=
      decodeChunks_of_longest (behindChunk (header 4294967296 ++ []))
    obtain ⟨rfl, rfl⟩ := h.unique (isLongest_behindChunk (.oversized rfl hdigits (by decide)))
    obtain ⟨hresult, hreport⟩ := hbig 4294967296 [] rfl (by decide) hdigits
    exact ⟨hresult, hreport.trans (by decide +kernel)⟩
  · obtain ⟨chunks, behind, h, -, -, -, hshort, -⟩ :=
      decodeChunks_of_longest (behindChunk (header 5 ++ [0x61]))
    obtain ⟨rfl, rfl⟩ :=
      h.unique (isLongest_behindChunk (.truncated (by decide) rfl (by decide) (by decide)))
    obtain ⟨-, hresult, hreport⟩ := hshort 5 [0x61] rfl (by decide) (by decide)
    exact ⟨hresult, hreport.trans (by decide +kernel)⟩

end Netconf.Framing
