import Netconf.Framing.Chunk
import Netconf.Framing.Frame
import Netconf.Framing.MarkerLine
import Netconf.Reply.Basic

/-!
# Decoding

From what the transport hands over to a reply: the framing is taken off, the text is read, the
reply gets the id of its request, and the error that the caller has to deal with is picked out.
-/

namespace Netconf

open Netconf.Framing Netconf.Text

/-- How a reply is to be decoded. A choice that is left open is taken from the settings. -/
structure DecodeOptions where
  /-- Whether errors of any severity count as fatal. -/
  errorOnWarning : Option Bool
  /-- The id of the request. -/
  messageId : List Char
  /-- Whether the sizes of chunks are counted. -/
  strictFraming : Option Bool
  settings : Settings
  deriving DecidableEq

namespace DecodeOptions

/-- Whether errors of any severity count as fatal. -/
def warningsCount (o : DecodeOptions) : Bool := o.errorOnWarning.getD o.settings.errorOnWarning

/-- Whether the sizes of chunks are counted. -/
def countsChunks (o : DecodeOptions) : Bool := o.strictFraming.getD o.settings.strictFraming

end DecodeOptions

/-- What a call is made under: choices for this call alone, settings in place of those of the
environment, and the environment itself. Each of the first two may be left out. -/
structure Configuration where
  errorOnWarning : Option Bool
  strictFraming : Option Bool
  settings : Option Settings
  environment : Environment

/-- The options of a call for the reply to a request. The environment is looked at only if no
settings are given. -/
def Configuration.options (c : Configuration) (messageId : List Char) : DecodeOptions where
  errorOnWarning := c.errorOnWarning
  messageId := messageId
  strictFraming := c.strictFraming
  settings := c.settings.getD (.ofEnvironment c.environment)

/-- Why nothing is decoded. -/
inductive DecodeError where
  | parse (e : ParseError)
  | chunk (e : ChunkError)
  deriving DecidableEq

/-- The report on something that is not decoded. -/
def DecodeError.message : DecodeError → List Char
  | .parse e => e.message
  | .chunk e => e.message

/-- A reply and where in its errors the one stands that the caller has to deal with. -/
structure Decoded where
  reply : Reply
  fatalIndex : Option Nat
  deriving DecidableEq

namespace Reply

/-- Whether octets begin like a chunked message. -/
def looksChunked (bs : List UInt8) : Bool := [0x0A, 0x23].isPrefixOf bs

/-- The text of a message, if its octets are one. -/
def textOf (raw : Wire) : Except ParseError (List Char) :=
  raw.toText.mapError fun m => ⟨.notText m, Utf8.decodeLossy raw.toOctets⟩

/-- The text of a message without its framing. Chunks are only counted where the message begins
with one; otherwise marker lines are dropped. -/
def unframe (raw : Wire) (countsChunks : Bool) : Logged (Except DecodeError (List Char)) :=
  if countsChunks && looksChunked raw.toOctets then
    let chunks := decodeChunks raw.toOctets
    ⟨chunks.entries, (chunks.result.mapError .chunk).map dropEndMarker⟩
  else
    let text := logged (textOf raw)
    ⟨text.entries, (text.result.mapError .parse).map fun s => dropEndMarker (dropMarkerLines s)⟩

/-- The entry on a text that is about to be read as a reply. -/
def decodingEntry (messageId s : List Char) : LogEntry :=
  ⟨.debug, .reply, "decoding reply message-id=".toList ++ messageId ++ ": ".toList ++ s⟩

/-- The entry on an error that the caller has to deal with. -/
def fatalEntry (messageId : List Char) (e : RpcError) : LogEntry :=
  ⟨.warning, .reply, "message-id=".toList ++ messageId ++ ' ' :: e.summary⟩

/-- A reply under the id of its request, with the error that the caller has to deal with. -/
def deliver {ε : Type} (o : DecodeOptions) (reply : Reply) : Logged (Except ε Decoded) :=
  let reply := { reply with messageId := o.messageId }
  { entries := ((reply.fatalError? o.warningsCount).map (fatalEntry o.messageId)).toList
    result := .ok ⟨reply, RpcError.firstFatalIndex? reply.errors o.warningsCount⟩ }

/-- What decoding makes of a text without framing and of what it is read as. -/
def decodeParsed {ε : Type} (o : DecodeOptions) (s : List Char)
    (parsed : Logged (Except ε Reply)) : Logged (Except ε Decoded) :=
  (parsed.andThen (deliver o)).after [decodingEntry o.messageId s]

/-- The reply that a text without framing is, under the id of its request. -/
def decodeText (o : DecodeOptions) (s : List Char) : Logged (Except DecodeError Decoded) :=
  decodeParsed o s ((parse s).mapError .parse)

/-- The reply in a message from the transport. -/
def decode (o : DecodeOptions) (raw : Wire) : Logged (Except DecodeError Decoded) :=
  (unframe raw o.countsChunks).andThen (decodeText o)

/-- The reply in a message from the transport, with room for so many elements inside one another
when details are written. -/
def decodeWithin (room : Nat) (o : DecodeOptions) (raw : Wire) :
    Logged (Except (Abort DecodeError) Decoded) :=
  ((unframe raw o.countsChunks).mapError .refused).andThen fun s =>
    decodeParsed o s ((parseWithin room s).mapError (Abort.map .parse))

end Reply

end Netconf
