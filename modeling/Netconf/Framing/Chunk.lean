import Netconf.Log
import Netconf.Text.Quoted
import Netconf.Text.Utf8

/-!
# Chunks

A chunked message is a sequence of chunks, each a header with the size of the chunk and that many
octets, and an end marker after them. Since the octets are counted, they may hold anything, headers
and end markers included. `decodeChunks` puts the chunks together again.
-/

namespace Netconf.Framing

open Netconf.Text

/-- The end marker: a line feed, two number signs and a line feed. -/
def endOfChunks : List UInt8 := [0x0A, 0x23, 0x23, 0x0A]

/-- The largest size that a chunk may have. -/
def maxChunkSize : Nat := 4294967295

/-- How many digits of a size are read at most. -/
def maxSizeDigits : Nat := 4300

/-- Why a chunked message is refused. -/
inductive FramingError where
  /-- No chunk header stands at the offset, where these octets stand. -/
  | badHeader (offset : Nat) (found : List UInt8)
  /-- The size of a chunk is beyond the largest. -/
  | oversized (size : Nat)
  /-- Fewer octets than announced are left. -/
  | truncated (expected received : Nat)
  /-- The chunks together are no text. -/
  | notText (reason : Utf8.Malformed)
  deriving DecidableEq

/-- Why no text comes out of a chunked message. -/
inductive ChunkError where
  /-- The framing is broken. -/
  | framing (e : FramingError)
  /-- The size of a chunk has too many digits to be read as a number at all. -/
  | sizeUnreadable (digits : Nat)
  deriving DecidableEq

/-- The report on broken framing. -/
def FramingError.message : FramingError → List Char
  | .badHeader offset found =>
    "invalid chunk header at offset ".toList ++ decimal offset ++ ": ".toList ++
      quotedOctets found
  | .oversized size =>
    "chunk size ".toList ++ decimal size ++ " exceeds maximum ".toList ++ decimal maxChunkSize
  | .truncated expected received =>
    "received invalid chunk size expected=".toList ++ decimal expected ++
      " received=".toList ++ decimal received
  | .notText reason => "chunk payload is not valid UTF-8: ".toList ++ reason.message

/-- The report on a chunked message that no text comes out of. -/
def ChunkError.message : ChunkError → List Char
  | .framing e => e.message
  | .sizeUnreadable digits =>
    "Exceeds the limit (".toList ++ decimal maxSizeDigits ++
      " digits) for integer string conversion: value has ".toList ++ decimal digits ++
      " digits; use sys.set_int_max_str_digits() to increase the limit".toList

/-- Whether the octet is a decimal digit. -/
def isDigitOctet (b : UInt8) : Bool := 0x30 ≤ b && b ≤ 0x39

/-- The number that decimal digits denote. -/
def sizeOfDigits (digits : List UInt8) : Nat :=
  digits.foldl (fun n b => n * 10 + (b.toNat - 0x30)) 0

/-- A chunk header at the start of the octets, as the digits of the size and the octets after it:
a line feed, a number sign, a numeral without leading zeros and a line feed. -/
def chunkHeader? : List UInt8 → Option (List UInt8 × List UInt8)
  | 0x0A :: 0x23 :: d :: rest =>
    if isDigitOctet d && d != 0x30 then
      match rest.dropWhile isDigitOctet with
      | 0x0A :: body => some (d :: rest.takeWhile isDigitOctet, body)
      | _ => none
    else none
  | _ => none

/-- What is left after a header is shorter. -/
theorem length_of_chunkHeader? {bs digits body : List UInt8}
    (h : chunkHeader? bs = some (digits, body)) : body.length < bs.length := by
  unfold chunkHeader? at h
  split at h
  · split at h
    · rename_i rest _
      split at h
      · rename_i b hb
        have := (List.dropWhile_suffix (l := rest) isDigitOctet).length_le
        simp_all
        grind
      · simp at h
    · simp at h
  · simp at h

/-- What came out of reading the chunks of a message: the chunks that were complete, in order, and
why reading stopped before the end marker if it did. -/
structure ChunkReading where
  chunks : List (List UInt8)
  stopped : Option ChunkError
  deriving DecidableEq

/-- Reads chunks up to the end marker; `offset` octets have been read before. -/
def readChunks (offset : Nat) (bs : List UInt8) : ChunkReading :=
  if endOfChunks.isPrefixOf bs then ⟨[], none⟩
  else
    match h : chunkHeader? bs with
    | none => ⟨[], some (.framing (.badHeader offset (bs.take 16)))⟩
    | some (digits, body) =>
      let size := sizeOfDigits digits
      if maxSizeDigits < digits.length then ⟨[], some (.sizeUnreadable digits.length)⟩
      else if maxChunkSize < size then ⟨[], some (.framing (.oversized size))⟩
      else
        let chunk := body.take size
        if chunk.length < size then
          ⟨[], some (.framing (.truncated size chunk.length))⟩
        else
          have := length_of_chunkHeader? h
          let more := readChunks (offset + 3 + digits.length + size) (body.drop size)
          { more with chunks := chunk :: more.chunks }
termination_by bs.length
decreasing_by simp only [List.length_drop]; omega

/-- The entry on a chunk that was read. -/
def chunkEntry (chunk : List UInt8) : LogEntry :=
  ⟨.debug, .framing, "decoded chunk of ".toList ++ decimal chunk.length ++ " bytes".toList⟩

/-- The text that a chunked message holds. Octets after the end marker are left alone. -/
def decodeChunks (bs : List UInt8) : Logged (Except ChunkError (List Char)) :=
  let reading := readChunks 0 bs
  { entries := reading.chunks.map chunkEntry
    result :=
      match reading.stopped with
      | some e => .error e
      | none =>
        (Utf8.decode reading.chunks.flatten).mapError fun m => .framing (.notText m) }

end Netconf.Framing
