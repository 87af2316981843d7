import Netconf.Settings
import Netconf.Text.Blank
import Netconf.Text.Utf8

/-!
# Framing of messages

Version 1.0 of the base protocol ends a message with a marker; version 1.1 sends it as chunks.
`frame` puts either framing around a message, and `dropEndMarker` takes the marker off again.
-/

namespace Netconf

/-- A message as it is handed over, as text or as octets. -/
inductive Wire where
  | text (s : List Char)
  | octets (bs : List UInt8)
  deriving DecidableEq

/-- The octets of a message; those of a text are its UTF-8 form. -/
def Wire.toOctets : Wire → List UInt8
  | .text s => Utf8.encode s
  | .octets bs => bs

/-- The text of a message, if its octets are one. -/
def Wire.toText : Wire → Except Utf8.Malformed (List Char)
  | .text s => .ok s
  | .octets bs => Utf8.decode bs

namespace Framing

open Netconf.Text

/-- The marker that ends a message of version 1.0. -/
def endOfMessage : List Char := "]]>]]>".toList

/-- The text without the marker at its end and the blanks around it. A text without the marker
stays as it is. -/
def dropEndMarker (s : List Char) : List Char :=
  let body := trimEnd s
  if endOfMessage.isSuffixOf body then trimEnd (body.take (body.length - endOfMessage.length))
  else s

/-- The versions of the base protocol. -/
inductive BaseVersion where
  | v1_0
  | v1_1
  deriving DecidableEq

/-- The version that a text names. -/
def BaseVersion.ofText? (s : List Char) : Option BaseVersion :=
  if s = "1.0".toList then some .v1_0 else if s = "1.1".toList then some .v1_1 else none

/-- Why a message is not framed. -/
inductive FrameError where
  /-- No version of the base protocol has this name. -/
  | unknownVersion (name : List Char)
  /-- The octets of the message are no text. -/
  | notText (reason : Utf8.Malformed)
  deriving DecidableEq

/-- The report on a message that is not framed. -/
def FrameError.message : FrameError → List Char
  | .unknownVersion name =>
    "Invalid NETCONF base version ".toList ++ name ++ ": must be '1.0' or '1.1'".toList
  | .notText reason => reason.message

/-- A text with the framing of the version around it. -/
def BaseVersion.enclose (v : BaseVersion) (s : List Char) : List Char :=
  match v with
  | .v1_0 => s ++ endOfMessage
  | .v1_1 =>
    "\n#".toList ++ decimal (Utf8.encode s).length ++ '\n' :: s ++ "\n##\n".toList

/-- The octets of a message with its framing, for the version of that name, or for the version of
the settings where none is given. The name is looked at before the message. -/
def frame (message : Wire) (version : Option (List Char)) (settings : Settings) :
    Except FrameError (List UInt8) := do
  let name := version.getD settings.baseVersion
  match BaseVersion.ofText? name with
  | none => .error (.unknownVersion name)
  | some v =>
    let content ← message.toText.mapError .notText
    return Utf8.encode (v.enclose content)

end Framing

end Netconf
