import Netconf.Text.Blank
import Netconf.Text.Word

/-!
# Tags in plain text

Some questions about a reply are answered from its text alone, without reading it as XML. A tag is
then an angle bracket with a name behind it, and a qualifier in front of the name may be any word
with dots and hyphens.
-/

namespace Netconf.Reply

open Netconf.Text

/-- The characters of qualifiers. -/
def isQualifierChar (c : Char) : Bool := isWord c || c == '.' || c == '-'

/-- What stands behind a name at the start of a text, without a qualifier. -/
def behindPlain? (name s : List Char) : Option (List Char) :=
  if name.isPrefixOf s then some (s.drop name.length) else none

/-- What stands behind a name at the start of a text, with a qualifier. -/
def behindQualified? (name s : List Char) : Option (List Char) :=
  match s.takeWhile isQualifierChar, s.dropWhile isQualifierChar with
  | _ :: _, ':' :: rest => behindPlain? name rest
  | _, _ => none

/-- What stands behind a name at the start of a text, in the ways that the start can be read as one:
with a qualifier, then without. -/
def behindName (name s : List Char) : List (List Char) :=
  (behindQualified? name s).toList ++ (behindPlain? name s).toList

/-- Whether a text goes on with nothing but blanks up to a closing bracket. -/
def closesTag (s : List Char) : Bool := (s.dropWhile isBlank).head? == some '>'

/-- What follows the closing bracket of a tag, of which the name and some attributes may have been
read, and whether a slash stands in front of the bracket. -/
def behindBracket? (s : List Char) : Option (Bool × List Char) :=
  match s.dropWhile (· != '>') with
  | _ :: rest => some ((s.takeWhile (· != '>')).getLast? == some '/', rest)
  | [] => none

/-- Whether an end tag of the name stands at the start of a text. -/
def startsWithEndTag (name : List Char) : List Char → Bool
  | '<' :: '/' :: s => (behindName name s).any closesTag
  | _ => false

end Netconf.Reply
