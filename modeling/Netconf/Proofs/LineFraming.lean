import Netconf.Proofs.EndMarker
import Netconf.Proofs.MarkerLines
import Netconf.Proofs.StrictFraming

/-!
# Decoding without counted chunks

Where the sizes of chunks are not counted, a message is decoded from its text alone: the marker
lines are dropped, then the end marker, and the rest is read (`decode_of_toText`). What a reply was
read from is left alone by both steps, so it decodes to the same reply again (`decode_rawReply`).
-/

namespace Netconf.Reply

open Netconf.Framing Netconf.Outcome Netconf.Text Netconf.Xml

/-- Decoding depends on the text of a message alone, whether it is handed over as text or as
octets, and reports nothing on taking the framing off. -/
lemma decode_of_toText {o : DecodeOptions} {raw : Wire} {s : List Char}
    (hlines : o.countsChunks = false) (h : raw.toText = .ok s) :
    decode o raw = decodeText o (dropEndMarker (dropMarkerLines s)) := by
  have hunframe : unframe raw false = ⟨[], .ok (dropEndMarker (dropMarkerLines s))⟩ := by
    rw [unframe, Bool.false_and, if_neg Bool.false_ne_true, textOf, h]
    rfl
  rw [decode, hlines, hunframe]
  rfl

/-- A text is framed for the version that is named. -/
lemma frame_text {name : List Char} {v : BaseVersion} (h : BaseVersion.ofText? name = some v)
    (s : List Char) (settings : Settings) :
    frame (.text s) (some name) settings = .ok (Utf8.encode (v.enclose s)) := by
  rw [frame, Option.getD_some, h]
  rfl

/-- What is decoded has a text. -/
lemma exists_toText_of_decode {o : DecodeOptions} {raw : Wire} {d : Decoded}
    (hlines : o.countsChunks = false) (h : (decode o raw).result = .ok d) :
    ∃ s, raw.toText = .ok s := by
  cases hs : raw.toText with
  | ok s => exact ⟨s, rfl⟩
  | error m =>
    have hunframe : (unframe raw false).result = .error (.parse ⟨.notText m,
        Utf8.decodeLossy raw.toOctets⟩) := by
      rw [unframe, Bool.false_and, if_neg Bool.false_ne_true, textOf, hs]
      rfl
    rw [decode, Logged.result_andThen, hlines, hunframe] at h
    cases h

/-- A reply keeps the text that it was read from, which is a document. -/
lemma document_of_decodeText {o : DecodeOptions} {s : List Char} {d : Decoded}
    (h : (decodeText o s).result = .ok d) :
    d.reply.rawReply = s ∧ ∃ document, Document.ofText (.ofText (trim s)) = .ok document := by
  rw [result_decodeText, result_parse] at h
  cases hs : ofText s with
  | error e =>
    rw [hs] at h
    cases h
  | ok r =>
    rw [hs] at h
    obtain ⟨document, hdocument, -, rfl⟩ := ofText_eq_ok_iff.1 hs
    cases h
    exact ⟨rfl, document, hdocument⟩

/-- **The text that a reply keeps decodes to the same reply.** Whatever framing a message had, and
whether it was text or octets: where a reply with the place of an error came out of it, the same
reply with the same place comes out of the text that the reply keeps. -/
theorem decode_rawReply {o : DecodeOptions} {raw : Wire} {d : Decoded}
    (hlines : o.countsChunks = false) (h : (decode o raw).result = .ok d) :
    (decode o (.text d.reply.rawReply)).result = .ok d := by
  obtain ⟨s, hs⟩ := exists_toText_of_decode hlines h
  rw [decode_of_toText hlines hs] at h
  obtain ⟨hraw, document, hdocument⟩ := document_of_decodeText h
  -- neither a marker line nor an end marker is in the text any more
  have hmarkers : dropMarkerLines (dropEndMarker (dropMarkerLines s))
      = dropEndMarker (dropMarkerLines s) := dropMarkerLines_of_isPrefix (isPrefix_dropEndMarker _)
  have hend : dropEndMarker (dropEndMarker (dropMarkerLines s))
      = dropEndMarker (dropMarkerLines s) := dropEndMarker_of_document hdocument
  rw [hraw, decode_of_toText hlines rfl, hmarkers, hend]
  exact h

/-- A reply in two chunks, with the marker of the other framing behind it. -/
def doublyFramedReply : List Char :=
  "\n#12\n<rpc-reply>\n\n#17\n<ok/></rpc-reply>\n##\n]]>]]>\n".toList

theorem decode_rawReply_doublyFramedReply :
    ∃ d, (decode ⟨none, "7".toList, some false, .ofEnvironment fun _ => none⟩
        (.octets (Utf8.encode doublyFramedReply))).result = .ok d ∧
      d.reply.rawReply = "<rpc-reply><ok/></rpc-reply>".toList ∧
      (decode ⟨none, "7".toList, some false, .ofEnvironment fun _ => none⟩
        (.text d.reply.rawReply)).result = .ok d := by
  have haccepted : (decode ⟨none, "7".toList, some false, .ofEnvironment fun _ => none⟩
      (.octets (Utf8.encode doublyFramedReply))).result.toOption.map (·.reply.rawReply)
      = some "<rpc-reply><ok/></rpc-reply>".toList := by decide +kernel
  cases hd : (decode ⟨none, "7".toList, some false, .ofEnvironment fun _ => none⟩
      (.octets (Utf8.encode doublyFramedReply))).result with
  | error e =>
    rw [hd] at haccepted
    cases haccepted
  | ok d =>
    rw [hd] at haccepted
    exact ⟨d, rfl, Option.some.inj haccepted, decode_rawReply rfl hd⟩

end Netconf.Reply
