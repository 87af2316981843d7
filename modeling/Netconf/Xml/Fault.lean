import Netconf.Text.Numeral

/-!
# Faults of XML documents

Why a text is no XML document and where. A place in a text is given by what follows it, so that
finding it needs no counting; line and column are worked out when a fault is reported.
-/

namespace Netconf.Xml

open Netconf.Text

/-- What is wrong with a document. -/
inductive Problem where
  | noElement
  | invalidToken
  | unclosedToken
  | unclosedCdata
  | unexpectedToken
  | junkAfterElement
  | mismatchedTag
  | duplicateAttribute
  | undefinedEntity
  /-- An entity that a declaration outside the document may define. -/
  | unreadEntity (reference : List Char)
  | recursiveEntity
  | asynchronousEntity
  | binaryEntity
  | externalEntityInAttribute
  | misplacedParameterEntity
  | invalidCharacterNumber
  | misplacedDeclaration
  | malformedDeclaration
  | malformedPublicId
  | unboundQualifier
  | undeclaredQualifier
  | reservedXml
  | reservedXmlns
  | reservedUri
  deriving DecidableEq

/-- What is said about a problem. -/
def Problem.message : Problem → List Char
  | .noElement => "no element found".toList
  | .invalidToken => "not well-formed (invalid token)".toList
  | .unclosedToken => "unclosed token".toList
  | .unclosedCdata => "unclosed CDATA section".toList
  | .unexpectedToken => "syntax error".toList
  | .junkAfterElement => "junk after document element".toList
  | .mismatchedTag => "mismatched tag".toList
  | .duplicateAttribute => "duplicate attribute".toList
  | .undefinedEntity => "undefined entity".toList
  | .unreadEntity reference => "undefined entity ".toList ++ reference
  | .recursiveEntity => "recursive entity reference".toList
  | .asynchronousEntity => "asynchronous entity".toList
  | .binaryEntity => "reference to binary entity".toList
  | .externalEntityInAttribute => "reference to external entity in attribute".toList
  | .misplacedParameterEntity => "illegal parameter entity reference".toList
  | .invalidCharacterNumber => "reference to invalid character number".toList
  | .misplacedDeclaration => "XML or text declaration not at start of entity".toList
  | .malformedDeclaration => "XML declaration not well-formed".toList
  | .malformedPublicId => "illegal character(s) in public id".toList
  | .unboundQualifier => "unbound prefix".toList
  | .undeclaredQualifier => "must not undeclare prefix".toList
  | .reservedXml =>
    "reserved prefix (xml) must not be undeclared or bound to another namespace name".toList
  | .reservedXmlns => "reserved prefix (xmlns) must not be declared or undeclared".toList
  | .reservedUri => "prefix must not be bound to one of the reserved namespace names".toList

/-- A problem and its place, given by the part of the text from there on. -/
structure Fault where
  problem : Problem
  place : List Char
  deriving DecidableEq

/-- A position in a text: the number of its line from one on, and of characters before it in the
line. -/
structure Position where
  line : Nat
  column : Nat
  deriving DecidableEq

/-- The position behind a text that starts at the given one. A line feed, a carriage return, or
both in this order end a line. -/
def Position.behind (p : Position) : List Char → Position
  | [] => p
  | '\r' :: '\n' :: s => behind ⟨p.line + 1, 0⟩ s
  | c :: s =>
    if c = '\n' ∨ c = '\r' then behind ⟨p.line + 1, 0⟩ s else behind ⟨p.line, p.column + 1⟩ s

/-- The position of a place in a document. -/
def Position.of (document place : List Char) : Position :=
  behind ⟨1, 0⟩ (document.take (document.length - place.length))

/-- The report on a fault of a document. -/
def Fault.message (f : Fault) (document : List Char) : List Char :=
  let p := Position.of document f.place
  f.problem.message ++ ": line ".toList ++ decimal p.line ++ ", column ".toList ++ decimal p.column

end Netconf.Xml
