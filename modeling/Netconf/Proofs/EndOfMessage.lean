import Netconf.Proofs.LineFraming
import Netconf.Proofs.OuterBlanks

/-!
# Decoding behind the end marker

A message of version 1.0 ends with a marker. Since marker lines are dropped first, the end marker is
found if the last line of the message in front of it is none of them; it then goes on that line and
is taken off with the blanks around it. What is left differs from the message without the marker
only in blanks at its end, which do not matter to reading (`decodeText_trimEnd`).
-/

namespace Netconf.Reply

open Netconf.Framing Netconf.Text Netconf.Xml

-- on a marker line the end marker would be dropped with the line
example : dropMarkerLines ("<rpc-reply/>\n#".toList ++ endOfMessage) = "<rpc-reply/>".toList := by
  decide

end Netconf.Reply
