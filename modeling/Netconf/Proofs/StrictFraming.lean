import Netconf.Proofs.Chunks
import Netconf.Proofs.EndMarker
import Netconf.Proofs.Reply
import Netconf.Reply.Decode

/-!
# Decoding with counted chunks

Where the sizes of chunks are counted, it does not matter how a text was cut into chunks: what is
read is the text without its end marker, and a text that is a reply already has none.
-/

namespace Netconf.Reply

open Netconf.Framing Netconf.Outcome Netconf.Text Netconf.Xml

/-- What decoding makes of the result of reading a text: the same refusal, or the reply under the
id of its request, with the place of the error that the caller has to deal with. -/
def decoded (o : DecodeOptions) (result : Except ParseError Reply) :
    Except DecodeError Decoded :=
  match result with
  | .error e => .error (.parse e)
  | .ok r =>
    .ok ⟨{ r with messageId := o.messageId },
      RpcError.firstFatalIndex? r.errors o.warningsCount⟩

lemma result_decodeText (o : DecodeOptions) (s : List Char) :
    (decodeText o s).result = decoded o (parse s).result := by
  unfold decodeText decodeParsed decoded
  rw [Logged.result_after, Logged.result_andThen, Logged.mapError]
  cases (parse s).result <;> rfl

/-- A chunked message begins like one, even if it has no chunks. -/
lemma looksChunked_writeChunks (pieces : List (List UInt8)) (rest : List UInt8) :
    looksChunked (writeChunks pieces ++ (endOfChunks ++ rest)) = true := by
  cases pieces with
  | nil => rfl
  | cons piece pieces => rfl

/-- The text of a chunked message, itself a text or octets, is what its chunks make together,
without the end marker. -/
lemma result_unframe_of_isChunked {raw : Wire} {pieces : List (List UInt8)} {s : List Char}
    (h : IsChunked raw.toOctets pieces) (hs : pieces.flatten = Utf8.encode s) :
    (unframe raw true).result = .ok (dropEndMarker s) := by
  have hlooks : looksChunked raw.toOctets = true := by
    obtain ⟨rest, hrest⟩ := h.form
    rw [hrest]
    exact looksChunked_writeChunks pieces rest
  rw [unframe, if_pos (by rw [hlooks]; rfl)]
  dsimp only
  rw [h.result_decodeChunks, hs, Utf8.decode_encode]
  rfl

lemma result_unframe {bs : List UInt8} {pieces : List (List UInt8)} {s : List Char}
    (h : IsChunked bs pieces) (hs : pieces.flatten = Utf8.encode s) :
    (unframe (.octets bs) true).result = .ok (dropEndMarker s) :=
  result_unframe_of_isChunked h hs

/-- **Counting chunks gives back the text, however it was cut.** Let the octets of a text be cut
into pieces that may be sent as chunks, inside characters or lines or anywhere else. Decoding the
chunked message has the outcome of reading the text without its end marker, and if the text itself
reads as a reply, that reply is the outcome and keeps the whole text. -/
theorem decode_writeChunks {x : List Char} {pieces : List (List UInt8)} {o : DecodeOptions}
    (hpieces : ∀ piece ∈ pieces, IsChunk piece) (hx : pieces.flatten = Utf8.encode x)
    (hstrict : o.countsChunks = true) :
    (decode o (.octets (writeChunks pieces ++ endOfChunks))).result
        = decoded o (parse (dropEndMarker x)).result ∧
      ∀ r, (parse x).result = .ok r →
        (decode o (.octets (writeChunks pieces ++ endOfChunks))).result = decoded o (.ok r) ∧
          r.rawReply = x := by
  have hchunked : IsChunked (writeChunks pieces ++ endOfChunks) pieces :=
    ⟨hpieces, [], by rw [List.append_nil]⟩
  have hdecode : (decode o (.octets (writeChunks pieces ++ endOfChunks))).result
      = decoded o (parse (dropEndMarker x)).result := by
    rw [decode, Logged.result_andThen, hstrict, result_unframe hchunked hx]
    exact result_decodeText o _
  refine ⟨hdecode, ?_⟩
  intro r hr
  have htext : ofText x = .ok r := by rw [← result_parse, hr]
  -- a text that is a reply has no end marker
  obtain ⟨document, hdocument, -, hparts⟩ := ofText_eq_ok_iff.1 htext
  rw [dropEndMarker_of_document hdocument, hr] at hdecode
  exact ⟨hdecode, by rw [hparts]⟩

/-- A reply with a line that starts with a number sign. -/
def replyWithMarkerLine : List Char := "<rpc-reply>é\n#</rpc-reply>\n".toList

/-- The octets of the reply, cut inside its one character of two octets. -/
def replyPieces : List (List UInt8) :=
  [Utf8.encode "<rpc-reply>".toList ++ [0xC3], 0xA9 :: Utf8.encode "\n#</rpc-reply>\n".toList]

theorem decode_writeChunks_replyPieces :
    ∃ r, (parse replyWithMarkerLine).result = .ok r ∧ r.rawReply = replyWithMarkerLine ∧
      (decode ⟨none, "7".toList, some true, .ofEnvironment fun _ => none⟩
        (.octets (writeChunks replyPieces ++ endOfChunks))).result
        = decoded ⟨none, "7".toList, some true, .ofEnvironment fun _ => none⟩ (.ok r) := by
  have haccepted : (parse replyWithMarkerLine).result.toOption.isSome = true := by
    decide +kernel
  cases hr : (parse replyWithMarkerLine).result with
  | error e =>
    rw [hr] at haccepted
    cases haccepted
  | ok r =>
    have hpieces : ∀ piece ∈ replyPieces, IsChunk piece := by decide
    have hx : replyPieces.flatten = Utf8.encode replyWithMarkerLine := by decide
    obtain ⟨-, h⟩ := decode_writeChunks hpieces hx
      (o := ⟨none, "7".toList, some true, .ofEnvironment fun _ => none⟩) rfl
    exact ⟨r, rfl, (h r hr).2, (h r hr).1⟩

end Netconf.Reply
