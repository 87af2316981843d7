import Netconf.Xml.StartTag

/-!
# Line ends

In a document a carriage return ends a line, with or without a line feed after it, and is read as
a line feed. A carriage return in the text of an entity can only come from a character reference
and stays.
-/

namespace Netconf.Xml

/-- Where text comes from. -/
inductive Origin where
  | document
  | entity
  deriving DecidableEq

/-- The text with a line feed for each line end. -/
def unifyLineEnds : List Char → List Char
  | '\r' :: '\n' :: s => '\n' :: unifyLineEnds s
  | c :: s => (if c = '\r' then '\n' else c) :: unifyLineEnds s
  | [] => []

/-- The parts of a value with one character for each line end. -/
def unifyValueLineEnds : List ValuePart → List ValuePart
  | .char '\r' :: .char '\n' :: s => .char '\n' :: unifyValueLineEnds s
  | p :: s => p :: unifyValueLineEnds s
  | [] => []

/-- The encoding of text from there. The text of an entity is kept as UTF-8, however the document is
encoded. -/
@[reducible] def Origin.encoding [Encoding] : Origin → Encoding
  | .document => inferInstance
  | .entity => .narrow

/-- The text as content of this origin means it. -/
def Origin.text : Origin → List Char → List Char
  | .document => unifyLineEnds
  | .entity => id

/-- The parts of a value as markup of this origin means them. -/
def Origin.value : Origin → List ValuePart → List ValuePart
  | .document => unifyValueLineEnds
  | .entity => id

end Netconf.Xml
