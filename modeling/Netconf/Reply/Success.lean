import Netconf.Reply.TagText

/-!
# The success mark

A reply reports success by an empty element `ok`. It is looked for in the text of the reply, in
any namespace, as a single tag or as a start tag and an end tag with blanks between them.
-/

namespace Netconf.Reply

open Netconf.Text

/-- The name of the element that reports success. -/
def okName : List Char := "ok".toList

/-- Whether an element `ok` whose start tag has just been closed is empty. -/
def closesEmpty (s : List Char) : Bool := startsWithEndTag okName (s.dropWhile isBlank)

/-- Whether the success mark goes on like this behind its name. -/
def isMarkBehindName : List Char → Bool
  | [] => false
  | c :: s =>
    if isBlank c then
      (behindBracket? s).any fun (slash, rest) => slash || closesEmpty rest
    else (c == '/' && s.head? == some '>') || (c == '>' && closesEmpty s)

/-- Whether the success mark stands at the start of a text. -/
def startsWithMark : List Char → Bool
  | '<' :: s => (behindName okName s).any isMarkBehindName
  | _ => false

/-- Whether the success mark stands anywhere in a text. -/
def reportsSuccess : List Char → Bool
  | [] => false
  | c :: s => startsWithMark (c :: s) || reportsSuccess s

end Netconf.Reply
