import Mathlib.Algebra.Group.Nat.Defs
import Mathlib.Data.List.Induction
import Mathlib.Data.List.TakeWhile
import Netconf.Framing.Chunk
import Netconf.Framing.Frame
import Netconf.Proofs.Utf8

/-!
# Chunked messages

`writeChunk` puts the header in front of a chunk, so that a chunked message is what the written
chunks and the end marker make together. `readChunks` is tied to it by one lemma for each step:
a written chunk is taken off as it was (`readChunks_writeChunk`), reading ends where something stops
it (`Stops`, `readChunks_of_stops`), and nothing but these and the end marker is ever found
(`readChunks_cases`). A whole run follows from its steps (`readChunks_writeChunks_append`,
`exists_of_readChunks`). Since the size says where a chunk ends, nothing in a chunk matters, and a
message has only one decomposition.
-/

namespace Netconf.Framing

open Netconf.Text

/-! ## Sizes -/

/-- The octets of a size: its decimal numeral. -/
def sizeNumeral (n : ℕ) : List UInt8 := Utf8.encode (decimal n)

/-- Whether octets are a numeral without leading zeros, of a size other than zero. -/
def IsSizeNumeral (digits : List UInt8) : Prop :=
  digits ≠ [] ∧ (∀ b ∈ digits, isDigitOctet b = true) ∧ digits.head? ≠ some 0x30

/-- The octet of a digit. -/
lemma encode_digitChar : ∀ n < 10, Utf8.encode [Nat.digitChar n] = [UInt8.ofNat (0x30 + n)] := by
  decide

lemma isDigitOctet_iff {b : UInt8} : isDigitOctet b = true ↔ 0x30 ≤ b.toNat ∧ b.toNat ≤ 0x39 := by
  unfold isDigitOctet
  simp only [Bool.and_eq_true, decide_eq_true_eq, UInt8.le_iff_toNat_le]
  rfl

lemma sizeNumeral_of_lt {n : ℕ} (h : n < 10) : sizeNumeral n = [UInt8.ofNat (0x30 + n)] := by
  rw [sizeNumeral, decimal, Nat.toDigits_of_lt_base h, encode_digitChar n h]

lemma sizeNumeral_of_ge {n : ℕ} (h : 10 ≤ n) :
    sizeNumeral n = sizeNumeral (n / 10) ++ [UInt8.ofNat (0x30 + n % 10)] := by
  rw [sizeNumeral, decimal, Nat.toDigits_of_base_le (by omega) h, Utf8.encode_append,
    encode_digitChar _ (Nat.mod_lt _ (by omega))]
  rfl

lemma sizeOfDigits_append_singleton (digits : List UInt8) (b : UInt8) :
    sizeOfDigits (digits ++ [b]) = sizeOfDigits digits * 10 + (b.toNat - 0x30) := by
  rw [sizeOfDigits, List.foldl_append]
  rfl

/-- The numeral of a size denotes the size. -/
lemma sizeOfDigits_sizeNumeral (n : ℕ) : sizeOfDigits (sizeNumeral n) = n := by
  induction n using Nat.strongRecOn with
  | ind n ih =>
    -- the last digit is the remainder by ten, the others are the numeral of the quotient
    by_cases h : n < 10
    · rw [sizeNumeral_of_lt h, sizeOfDigits, List.foldl_cons, List.foldl_nil,
        Utf8.toNat_ofNat_of_lt (by omega)]
      omega
    · have hlt : n / 10 < n := by omega
      rw [sizeNumeral_of_ge (by omega), sizeOfDigits_append_singleton, ih _ hlt,
        Utf8.toNat_ofNat_of_lt (by omega)]
      omega

lemma isSizeNumeral_sizeNumeral {n : ℕ} (h : 0 < n) : IsSizeNumeral (sizeNumeral n) := by
  induction n using Nat.strongRecOn with
  | ind n ih =>
    by_cases hn : n < 10
    · rw [sizeNumeral_of_lt hn]
      have hb : (UInt8.ofNat (0x30 + n)).toNat = 0x30 + n := Utf8.toNat_ofNat_of_lt (by omega)
      refine ⟨by simp, ?_, ?_⟩
      · intro b hmem
        rw [List.mem_singleton.1 hmem, isDigitOctet_iff, hb]
        omega
      · intro hzero
        have := congrArg UInt8.toNat (Option.some.inj hzero)
        rw [hb] at this
        simp at this
        omega
    · obtain ⟨hne, hdigits, hhead⟩ := ih (n / 10) (by omega) (by omega)
      rw [sizeNumeral_of_ge (by omega)]
      refine ⟨by simp, ?_, ?_⟩
      · intro b hmem
        rcases List.mem_append.1 hmem with hmem | hmem
        · exact hdigits b hmem
        · rw [List.mem_singleton.1 hmem, isDigitOctet_iff, Utf8.toNat_ofNat_of_lt (by omega)]
          omega
      · rwa [List.head?_append_of_ne_nil _ hne]

/-- A numeral without leading zeros is the numeral of the size that it denotes. -/
lemma sizeNumeral_sizeOfDigits {digits : List UInt8} (h : IsSizeNumeral digits) :
    0 < sizeOfDigits digits ∧ sizeNumeral (sizeOfDigits digits) = digits := by
  -- from the last digit to the first, as numerals are written
  induction digits using List.reverseRecOn with
  | nil => exact absurd rfl h.1
  | append_singleton ds b ih =>
    obtain ⟨-, hdigits, hhead⟩ := h
    have hb := isDigitOctet_iff.1 (hdigits b (by simp))
    have hoctet : UInt8.ofNat (0x30 + (b.toNat - 0x30)) = b := by
      rw [Nat.add_sub_cancel' hb.1, UInt8.ofNat_toNat]
    rw [sizeOfDigits_append_singleton]
    by_cases hds : ds = []
    · subst hds
      -- a numeral of one digit is not that of zero
      have hne : b ≠ 0x30 := by
        intro hb
        exact hhead (by rw [hb]; rfl)
      have hpos : b.toNat ≠ 0x30 := by
        intro hn
        exact hne (UInt8.toNat_inj.1 hn)
      rw [show sizeOfDigits [] = 0 from rfl, Nat.zero_mul, Nat.zero_add,
        sizeNumeral_of_lt (by omega), hoctet]
      exact ⟨by omega, rfl⟩
    · obtain ⟨hpos, hback⟩ := ih ⟨hds, fun c hc => hdigits c (by simp [hc]),
        by rwa [List.head?_append_of_ne_nil _ hds] at hhead⟩
      have hdiv : (sizeOfDigits ds * 10 + (b.toNat - 0x30)) / 10 = sizeOfDigits ds := by omega
      have hmod : (sizeOfDigits ds * 10 + (b.toNat - 0x30)) % 10 = b.toNat - 0x30 := by omega
      rw [sizeNumeral_of_ge (by omega), hdiv, hmod, hback, hoctet]
      exact ⟨by omega, rfl⟩

/-! ## Headers -/

/-- A header is read exactly where a numeral without leading zeros stands in one. -/
lemma chunkHeader?_eq_some_iff {bs digits body : List UInt8} :
    chunkHeader? bs = some (digits, body) ↔
      IsSizeNumeral digits ∧ bs = 0x0A :: 0x23 :: (digits ++ 0x0A :: body) := by
  constructor
  · intro h
    unfold chunkHeader? at h
    split at h
    · next d rest =>
      split at h
      · next hd =>
        simp only [Bool.and_eq_true, bne_iff_ne, ne_eq] at hd
        split at h
        · next body' hdrop =>
          simp only [Option.some.injEq, Prod.mk.injEq] at h
          obtain ⟨rfl, rfl⟩ := h
          refine ⟨⟨by simp, ?_, by simp [hd.2]⟩, ?_⟩
          · intro b hb
            rcases List.mem_cons.1 hb with rfl | hb
            · exact hd.1
            · exact (List.mem_takeWhile_imp hb)
          · rw [List.cons_append, ← hdrop, List.takeWhile_append_dropWhile]
        · cases h
      · cases h
    · cases h
  · rintro ⟨⟨hne, hdigits, hhead⟩, rfl⟩
    obtain ⟨d, ds, rfl⟩ := List.exists_cons_of_ne_nil hne
    have hd : d ≠ 0x30 := by
      intro hd
      exact hhead (by rw [hd]; rfl)
    have hds : ∀ b ∈ ds, isDigitOctet b = true := by
      intro b hb
      exact hdigits b (by simp [hb])
    -- the digits go on to the line feed and no further
    have htake : (ds ++ 0x0A :: body).takeWhile isDigitOctet = ds := by
      rw [List.takeWhile_append_of_pos hds, List.takeWhile_cons_of_neg (by decide),
        List.append_nil]
    have hdrop : (ds ++ 0x0A :: body).dropWhile isDigitOctet = 0x0A :: body := by
      rw [List.dropWhile_append_of_pos hds, List.dropWhile_cons_of_neg (by decide)]
    simp only [chunkHeader?, List.cons_append, hdigits d (by simp), bne_iff_ne.2 hd, Bool.and_self,
      if_true, htake, hdrop]

/-- The header of a chunk of this size. -/
def header (n : ℕ) : List UInt8 := 0x0A :: 0x23 :: (sizeNumeral n ++ [0x0A])

lemma header_append (n : ℕ) (body : List UInt8) :
    header n ++ body = 0x0A :: 0x23 :: (sizeNumeral n ++ 0x0A :: body) := by
  simp [header]

/-- A header is read exactly where the header of some size stands. -/
lemma chunkHeader?_eq_some_iff_header {bs digits body : List UInt8} :
    chunkHeader? bs = some (digits, body) ↔
      ∃ n, 0 < n ∧ digits = sizeNumeral n ∧ bs = header n ++ body := by
  rw [chunkHeader?_eq_some_iff]
  constructor
  · rintro ⟨hdigits, rfl⟩
    obtain ⟨hpos, hback⟩ := sizeNumeral_sizeOfDigits hdigits
    exact ⟨sizeOfDigits digits, hpos, hback.symm, by rw [header_append, hback]⟩
  · rintro ⟨n, hn, rfl, rfl⟩
    exact ⟨isSizeNumeral_sizeNumeral hn, header_append n body⟩

lemma chunkHeader?_header {n : ℕ} (hn : 0 < n) (body : List UInt8) :
    chunkHeader? (header n ++ body) = some (sizeNumeral n, body) :=
  chunkHeader?_eq_some_iff_header.2 ⟨n, hn, rfl, rfl⟩

lemma chunkHeader?_eq_none_iff {bs : List UInt8} :
    chunkHeader? bs = none ↔ ∀ n body, 0 < n → bs ≠ header n ++ body := by
  rw [Option.eq_none_iff_forall_ne_some]
  constructor
  · rintro h n body hn rfl
    exact h _ (chunkHeader?_header hn body)
  · rintro h ⟨digits, body⟩ hfound
    obtain ⟨n, hn, -, hform⟩ := chunkHeader?_eq_some_iff_header.1 hfound
    exact h n body hn hform

/-- A header tells its size and what stands behind it. -/
lemma header_append_inj {n n' : ℕ} {body body' : List UInt8} (hn : 0 < n) (hn' : 0 < n')
    (h : header n ++ body = header n' ++ body') : n = n' ∧ body = body' := by
  have hread := chunkHeader?_header hn body
  rw [h, chunkHeader?_header hn'] at hread
  obtain ⟨hdigits, rfl⟩ := Prod.mk.inj (Option.some.inj hread)
  refine ⟨?_, rfl⟩
  rw [← sizeOfDigits_sizeNumeral n, ← hdigits, sizeOfDigits_sizeNumeral]

/-! ## Chunks -/

/-- Whether octets may be sent as one chunk. -/
def IsChunk (chunk : List UInt8) : Prop := 1 ≤ chunk.length ∧ chunk.length ≤ maxChunkSize

instance (chunk : List UInt8) : Decidable (IsChunk chunk) := inferInstanceAs (Decidable (_ ∧ _))

/-- A chunk with its header: a line feed, a number sign, the size, a line feed and the chunk. -/
def writeChunk (chunk : List UInt8) : List UInt8 :=
  0x0A :: 0x23 :: (sizeNumeral chunk.length ++ 0x0A :: chunk)

/-- Chunks one after the other, each with its header. -/
def writeChunks (chunks : List (List UInt8)) : List UInt8 := chunks.flatMap writeChunk

@[simp] lemma writeChunks_nil : writeChunks [] = [] := rfl

@[simp] lemma writeChunks_cons (chunk : List UInt8) (chunks : List (List UInt8)) :
    writeChunks (chunk :: chunks) = writeChunk chunk ++ writeChunks chunks := List.flatMap_cons

lemma writeChunk_eq (chunk : List UInt8) : writeChunk chunk = header chunk.length ++ chunk := by
  rw [header_append, writeChunk]

/-- A header announces the size of its chunk. -/
lemma chunkHeader?_writeChunk {chunk : List UInt8} (h : 1 ≤ chunk.length) (bs : List UInt8) :
    chunkHeader? (writeChunk chunk ++ bs) = some (sizeNumeral chunk.length, chunk ++ bs) := by
  rw [writeChunk_eq, List.append_assoc, chunkHeader?_header h]

/-- Written chunks behind each other are told apart. -/
lemma writeChunk_append_inj {chunk chunk' more more' : List UInt8} (h : IsChunk chunk)
    (h' : IsChunk chunk') (heq : writeChunk chunk ++ more = writeChunk chunk' ++ more') :
    chunk = chunk' ∧ more = more' := by
  rw [writeChunk_eq, writeChunk_eq, List.append_assoc, List.append_assoc] at heq
  obtain ⟨hlength, hbody⟩ := header_append_inj h.1 h'.1 heq
  exact List.append_inj hbody hlength

/-- The end marker is no header, since its second number sign is no digit. -/
lemma chunkHeader?_endOfChunks (rest : List UInt8) : chunkHeader? (endOfChunks ++ rest) = none := by
  rfl

/-- A number below a power of ten has no more digits than the exponent says. -/
lemma length_sizeNumeral_le {k n : ℕ} (hk : 0 < k) (h : n < 10 ^ k) :
    (sizeNumeral n).length ≤ k := by
  induction k generalizing n with
  | zero => omega
  | succ k ih =>
    by_cases hn : n < 10
    · rw [sizeNumeral_of_lt hn, List.length_singleton]
      omega
    · have hk : 0 < k := by
        rcases Nat.eq_zero_or_pos k with rfl | hk
        · simp at h; omega
        · exact hk
      have hlen := ih hk (n := n / 10) (by rw [Nat.pow_succ] at h; omega)
      rw [sizeNumeral_of_ge (by omega), List.length_append, List.length_singleton]
      omega

/-- A size that a chunk may have has few enough digits to be read. -/
lemma length_sizeNumeral_le_of_le {n : ℕ} (h : n ≤ maxChunkSize) :
    (sizeNumeral n).length ≤ maxSizeDigits := by
  unfold maxChunkSize at h
  exact (length_sizeNumeral_le (k := 10) (by omega) (by omega)).trans (by decide)

/-! ## Reading chunks -/

lemma readChunks_endOfChunks (offset : ℕ) (rest : List UInt8) :
    readChunks offset (endOfChunks ++ rest) = ⟨[], none⟩ := by
  rw [readChunks, if_pos (List.isPrefixOf_iff_prefix.2 (List.prefix_append _ _))]

/-- Without an end marker and a header, reading stops where it is. -/
lemma readChunks_of_no_header {bs : List UInt8} (hend : endOfChunks.isPrefixOf bs = false)
    (h : chunkHeader? bs = none) (offset : ℕ) :
    readChunks offset bs = ⟨[], some (.framing (.badHeader offset (bs.take 16)))⟩ := by
  rw [readChunks, if_neg (by rw [hend]; decide)]
  split
  · rfl
  · next hsome => rw [h] at hsome; cases hsome

/-- What a header leads to: one of three refusals, or the chunk that it announces. -/
lemma readChunks_of_header {bs digits body : List UInt8} (h : chunkHeader? bs = some (digits, body))
    (offset : ℕ) :
    readChunks offset bs =
      if maxSizeDigits < digits.length then ⟨[], some (.sizeUnreadable digits.length)⟩
      else if maxChunkSize < sizeOfDigits digits then
        ⟨[], some (.framing (.oversized (sizeOfDigits digits)))⟩
      else if body.length < sizeOfDigits digits then
        ⟨[], some (.framing (.truncated (sizeOfDigits digits) body.length))⟩
      else
        { readChunks (offset + 3 + digits.length + sizeOfDigits digits)
            (body.drop (sizeOfDigits digits)) with
          chunks := body.take (sizeOfDigits digits) ::
            (readChunks (offset + 3 + digits.length + sizeOfDigits digits)
              (body.drop (sizeOfDigits digits))).chunks } := by
  -- a header is not taken for the end marker
  have hend : endOfChunks.isPrefixOf bs = false := by
    rw [Bool.eq_false_iff]
    intro hprefix
    obtain ⟨rest, hrest⟩ := List.isPrefixOf_iff_prefix.1 hprefix
    rw [← hrest, chunkHeader?_endOfChunks] at h
    cases h
  rw [readChunks, if_neg (by rw [hend]; decide)]
  split
  · next hnone => rw [h] at hnone; cases hnone
  · next digits' body' hsome =>
    rw [h] at hsome
    obtain ⟨rfl, rfl⟩ := Prod.mk.inj (Option.some.inj hsome)
    dsimp only
    rw [List.length_take]
    -- too few octets are taken exactly where the body is too short
    by_cases hshort : body.length < sizeOfDigits digits
    · rw [Nat.min_eq_right hshort.le]
    · rw [Nat.min_eq_left (by omega), if_neg (lt_irrefl _), if_neg hshort]

/-- What a header of a size leads to. -/
lemma readChunks_header {n : ℕ} (hn : 0 < n) (offset : ℕ) (body : List UInt8) :
    readChunks offset (header n ++ body) =
      if maxSizeDigits < (sizeNumeral n).length then
        ⟨[], some (.sizeUnreadable (sizeNumeral n).length)⟩
      else if maxChunkSize < n then ⟨[], some (.framing (.oversized n))⟩
      else if body.length < n then ⟨[], some (.framing (.truncated n body.length))⟩
      else
        { readChunks (offset + 3 + (sizeNumeral n).length + n) (body.drop n) with
          chunks := body.take n ::
            (readChunks (offset + 3 + (sizeNumeral n).length + n) (body.drop n)).chunks } := by
  rw [readChunks_of_header (chunkHeader?_header hn body), sizeOfDigits_sizeNumeral]

/-- A written chunk is taken off as it was, whatever octets it holds and whatever follows it. -/
lemma readChunks_writeChunk {chunk : List UInt8} (h : IsChunk chunk) (offset : ℕ)
    (bs : List UInt8) :
    readChunks offset (writeChunk chunk ++ bs)
      = { readChunks (offset + (writeChunk chunk).length) bs with
          chunks := chunk :: (readChunks (offset + (writeChunk chunk).length) bs).chunks } := by
  have hdigits := length_sizeNumeral_le_of_le h.2
  have hoffset : offset + 3 + (sizeNumeral chunk.length).length + chunk.length
      = offset + (writeChunk chunk).length := by
    simp only [writeChunk, List.length_cons, List.length_append]
    omega
  rw [readChunks_of_header (chunkHeader?_writeChunk h.1 bs), sizeOfDigits_sizeNumeral,
    if_neg hdigits.not_gt, if_neg h.2.not_gt, if_neg (by rw [List.length_append]; omega),
    List.take_left, List.drop_left, hoffset]

/-- Why reading stops at once at these octets, with so many octets in front of them. -/
inductive Stops (offset : ℕ) (bs : List UInt8) : ChunkError → Prop where
  /-- Neither the end marker nor a header stands there. -/
  | noHeader (hend : ¬ endOfChunks <+: bs) (hheader : ∀ n body, 0 < n → bs ≠ header n ++ body) :
      Stops offset bs (.framing (.badHeader offset (bs.take 16)))
  /-- The size has too many digits. -/
  | unreadable {n : ℕ} {body : List UInt8} (hn : 0 < n) (hform : bs = header n ++ body)
      (hdigits : maxSizeDigits < (sizeNumeral n).length) :
      Stops offset bs (.sizeUnreadable (sizeNumeral n).length)
  /-- The size can be read and is beyond the largest. -/
  | oversized {n : ℕ} {body : List UInt8} (hform : bs = header n ++ body)
      (hdigits : (sizeNumeral n).length ≤ maxSizeDigits) (hsize : maxChunkSize < n) :
      Stops offset bs (.framing (.oversized n))
  /-- Fewer octets are left than a chunk of this size has. -/
  | truncated {n : ℕ} {body : List UInt8} (hn : 0 < n) (hform : bs = header n ++ body)
      (hsize : n ≤ maxChunkSize) (hshort : body.length < n) :
      Stops offset bs (.framing (.truncated n body.length))

/-- Where something stops it, reading ends at once. -/
lemma readChunks_of_stops {offset : ℕ} {bs : List UInt8} {e : ChunkError} (h : Stops offset bs e) :
    readChunks offset bs = ⟨[], some e⟩ := by
  cases h with
  | noHeader hend hheader =>
    apply readChunks_of_no_header
    · rw [Bool.eq_false_iff, ne_eq, List.isPrefixOf_iff_prefix]
      exact hend
    · exact chunkHeader?_eq_none_iff.2 hheader
  | unreadable hn hform hdigits => rw [hform, readChunks_header hn, if_pos hdigits]
  | @oversized n body hform hdigits hsize =>
    have hn : 0 < n := by omega
    rw [hform, readChunks_header hn, if_neg hdigits.not_gt, if_pos hsize]
  | truncated hn hform hsize hshort =>
    rw [hform, readChunks_header hn, if_neg (length_sizeNumeral_le_of_le hsize).not_gt,
      if_neg hsize.not_gt, if_pos hshort]

/-- What one step of reading finds: the end marker, a written chunk, or what stops it. -/
lemma readChunks_cases (offset : ℕ) (bs : List UInt8) :
    (∃ rest, bs = endOfChunks ++ rest) ∨
      (∃ chunk rest, IsChunk chunk ∧ bs = writeChunk chunk ++ rest) ∨ ∃ e, Stops offset bs e := by
  by_cases hend : endOfChunks <+: bs
  · obtain ⟨rest, hrest⟩ := hend
    exact Or.inl ⟨rest, hrest.symm⟩
  right
  cases hheader : chunkHeader? bs with
  | none => exact Or.inr ⟨_, .noHeader hend (chunkHeader?_eq_none_iff.1 hheader)⟩
  | some header =>
    obtain ⟨n, hn, -, rfl⟩ := chunkHeader?_eq_some_iff_header.1 hheader
    by_cases hdigits : maxSizeDigits < (sizeNumeral n).length
    · exact Or.inr ⟨_, .unreadable hn rfl hdigits⟩
    by_cases hsize : maxChunkSize < n
    · exact Or.inr ⟨_, .oversized rfl (not_lt.1 hdigits) hsize⟩
    by_cases hshort : header.2.length < n
    · exact Or.inr ⟨_, .truncated hn rfl (not_lt.1 hsize) hshort⟩
    · have hlength : (header.2.take n).length = n := by
        rw [List.length_take]
        omega
      refine Or.inl ⟨header.2.take n, header.2.drop n, ⟨by omega, by omega⟩, ?_⟩
      rw [writeChunk_eq, hlength, List.append_assoc, List.take_append_drop]

/-- Written chunks are taken off as they were, one by one, and what follows them is read on. -/
lemma readChunks_writeChunks_append {chunks : List (List UInt8)}
    (h : ∀ chunk ∈ chunks, IsChunk chunk) (offset : ℕ) (bs : List UInt8) :
    readChunks offset (writeChunks chunks ++ bs)
      = { readChunks (offset + (writeChunks chunks).length) bs with
          chunks := chunks ++ (readChunks (offset + (writeChunks chunks).length) bs).chunks } := by
  induction chunks generalizing offset with
  | nil => rfl
  | cons chunk chunks ih =>
    rw [writeChunks_cons, List.append_assoc, readChunks_writeChunk (h chunk (by simp)),
      ih fun c hc => h c (by simp [hc]), List.length_append, Nat.add_assoc]
    rfl

/-- What a whole run of reading finds: written chunks, and behind them the end marker or something
that stops it. -/
lemma exists_of_readChunks (offset : ℕ) (bs : List UInt8) :
    ∃ chunks rest, (∀ chunk ∈ chunks, IsChunk chunk) ∧ bs = writeChunks chunks ++ rest ∧
      ((∃ behind, rest = endOfChunks ++ behind) ∨
        ∃ e, Stops (offset + (writeChunks chunks).length) rest e) := by
  -- on the number of octets that are left
  induction hn : bs.length using Nat.strongRecOn generalizing offset bs with
  | ind n ih =>
    rcases readChunks_cases offset bs with hend | ⟨chunk, more, hchunk, rfl⟩ | hstop
    · exact ⟨[], bs, by simp, rfl, Or.inl hend⟩
    · have hlen : more.length < n := by
        rw [← hn, writeChunk]
        simp only [List.length_append, List.length_cons]
        omega
      obtain ⟨chunks, rest, hchunks, rfl, hrest⟩ :=
        ih _ hlen (offset + (writeChunk chunk).length) more rfl
      refine ⟨chunk :: chunks, rest, ?_, ?_, ?_⟩
      · exact List.forall_mem_cons.2 ⟨hchunk, hchunks⟩
      · rw [writeChunks_cons, List.append_assoc]
      · rwa [writeChunks_cons, List.length_append, ← Nat.add_assoc]
    · exact ⟨[], bs, by simp, rfl, Or.inr hstop⟩

/-- Reading a chunked message gives the chunks that it was written from. -/
lemma readChunks_writeChunks {chunks : List (List UInt8)} (h : ∀ chunk ∈ chunks, IsChunk chunk)
    (offset : ℕ) (rest : List UInt8) :
    readChunks offset (writeChunks chunks ++ (endOfChunks ++ rest)) = ⟨chunks, none⟩ := by
  rw [readChunks_writeChunks_append h, readChunks_endOfChunks, List.append_nil]

/-- What is read up to the end marker was written. -/
lemma eq_writeChunks_of_readChunks {offset : ℕ} {bs : List UInt8}
    (h : (readChunks offset bs).stopped = none) :
    (∀ chunk ∈ (readChunks offset bs).chunks, IsChunk chunk) ∧
      ∃ rest, bs = writeChunks (readChunks offset bs).chunks ++ (endOfChunks ++ rest) := by
  obtain ⟨chunks, rest, hchunks, rfl, ⟨behind, rfl⟩ | ⟨e, he⟩⟩ := exists_of_readChunks offset bs
  · rw [readChunks_writeChunks hchunks]
    exact ⟨hchunks, behind, rfl⟩
  · rw [readChunks_writeChunks_append hchunks, readChunks_of_stops he] at h
    cases h

/-! ## Chunked messages -/

/-- Whether octets begin with a chunked message of the given chunks. -/
structure IsChunked (bs : List UInt8) (chunks : List (List UInt8)) : Prop where
  /-- Each chunk may be sent as one. -/
  sizes : ∀ chunk ∈ chunks, IsChunk chunk
  /-- The written chunks come first, then the end marker. -/
  form : ∃ rest, bs = writeChunks chunks ++ (endOfChunks ++ rest)

/-- A chunked message is read up to its end marker. -/
lemma IsChunked.readChunks {bs : List UInt8} {chunks : List (List UInt8)} (h : IsChunked bs chunks)
    (offset : ℕ) : Framing.readChunks offset bs = ⟨chunks, none⟩ := by
  obtain ⟨rest, rfl⟩ := h.form
  exact readChunks_writeChunks h.sizes offset rest

lemma isChunked_of_readChunks {offset : ℕ} {bs : List UInt8}
    (h : (readChunks offset bs).stopped = none) : IsChunked bs (readChunks offset bs).chunks :=
  ⟨(eq_writeChunks_of_readChunks h).1, (eq_writeChunks_of_readChunks h).2⟩

/-- The result on a chunked message is its payload, if that is a text. -/
lemma IsChunked.result_decodeChunks {bs : List UInt8} {chunks : List (List UInt8)}
    (h : IsChunked bs chunks) :
    (decodeChunks bs).result
      = (Utf8.decode chunks.flatten).mapError fun m => .framing (.notText m) := by
  simp only [decodeChunks, h.readChunks 0]

/-- Where reading stops, no text comes out. -/
lemma result_decodeChunks_of_stopped {bs : List UInt8} {e : ChunkError}
    (h : (readChunks 0 bs).stopped = some e) : (decodeChunks bs).result = .error e := by
  simp only [decodeChunks, h]

/-- Where a text comes out, the chunks that are read make a chunked message. -/
lemma isChunked_of_result_decodeChunks {bs : List UInt8} {s : List Char}
    (h : (decodeChunks bs).result = .ok s) : IsChunked bs (readChunks 0 bs).chunks := by
  apply isChunked_of_readChunks
  cases hstop : (readChunks 0 bs).stopped with
  | none => rfl
  | some e =>
    rw [result_decodeChunks_of_stopped hstop] at h
    cases h

/-- **Exactly the chunked messages are decoded, to exactly their payload.** A text comes out of a
message, itself a text or octets, exactly when the message begins with written chunks and the end
marker and the chunks together are the octets of the text. No message can be cut into chunks in
two ways. -/
theorem decodeChunks_eq_ok_iff (raw : Wire) (s : List Char) :
    ((decodeChunks raw.toOctets).result = .ok s ↔
      ∃ chunks, IsChunked raw.toOctets chunks ∧ chunks.flatten = Utf8.encode s) ∧
    ∀ chunks chunks', IsChunked raw.toOctets chunks → IsChunked raw.toOctets chunks' →
      chunks = chunks' := by
  refine ⟨⟨?_, ?_⟩, ?_⟩
  · intro h
    -- what was read up to the end marker is a chunked message
    cases hstop : (readChunks 0 raw.toOctets).stopped with
    | some e =>
      simp only [decodeChunks, hstop] at h
      cases h
    | none =>
      have hchunked := isChunked_of_readChunks hstop
      rw [hchunked.result_decodeChunks, Outcome.mapError_eq_ok_iff, Utf8.decode_eq_ok_iff] at h
      exact ⟨_, hchunked, h⟩
  · rintro ⟨chunks, hchunked, hs⟩
    rw [hchunked.result_decodeChunks, Outcome.mapError_eq_ok_iff, Utf8.decode_eq_ok_iff, hs]
  · intro chunks chunks' h h'
    -- reading is a function, so both are what it finds
    have hread := h.readChunks 0
    rw [h'.readChunks 0] at hread
    exact (congrArg ChunkReading.chunks hread).symm

end Netconf.Framing
