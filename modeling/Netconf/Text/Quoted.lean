import Netconf.Text.Numeral
import Netconf.Text.Printable

/-!
# Quoted form

A text or a run of octets shown between quotes on one line. Single quotes stand around it, or
double quotes where it holds single quotes and no double ones. A backslash and the quote in use
are written after a backslash, and so is what cannot be shown as it is.
-/

namespace Netconf.Text

/-- The quote that stands around a text: the single one unless only that occurs inside. -/
def quoteFor (s : List Char) : Char :=
  if s.contains '\x27' && !s.contains '\x22' then '\x22' else '\x27'

/-- A backslash with the given text after it. -/
def escaped (s : List Char) : List Char := '\x5c' :: s

/-- How one character is written inside a quoted text. -/
def quoteChar (quote c : Char) : List Char :=
  if c == quote || c == '\x5c' then escaped [c]
  else if c == '\n' then escaped ['n']
  else if c == '\r' then escaped ['r']
  else if c == '\t' then escaped ['t']
  else if isPrintable c then [c]
  else if c.toNat < 0x100 then escaped ('x' :: hexadecimal 2 c.toNat)
  else if c.toNat < 0x10000 then escaped ('u' :: hexadecimal 4 c.toNat)
  else escaped ('U' :: hexadecimal 8 c.toNat)

/-- The quoted form of a text. -/
def quoted (s : List Char) : List Char :=
  let quote := quoteFor s
  quote :: s.flatMap (quoteChar quote) ++ [quote]

/-- How one octet is written inside a quoted run of octets: those of printable ASCII characters
as the character. -/
def quoteOctet (quote : Char) (b : UInt8) : List Char :=
  if b.toNat < 0x80 then quoteChar quote (.ofNat b.toNat)
  else escaped ('x' :: hexadecimal 2 b.toNat)

/-- The quoted form of a run of octets, with a letter in front that tells it from a text. -/
def quotedOctets (bs : List UInt8) : List Char :=
  let quote := quoteFor (bs.map fun b => .ofNat b.toNat)
  'b' :: quote :: bs.flatMap (quoteOctet quote) ++ [quote]

end Netconf.Text
