import Netconf.Xml.Content
import Netconf.Xml.Declaration
import Netconf.Xml.Doctype
import Netconf.Xml.Encoding

/-!
# Documents

A document is a root element with something in front of it and behind it: an XML declaration, a
document type declaration, comments, instructions and white space. `Document.ofText` reads a text
as a document, or finds the first fault of the text.
-/

namespace Netconf.Xml

variable [Encoding]

/-- What is read as a document: its root element and the tags around the content of the root. The
tag of an empty root is both. -/
structure Document where
  root : Element
  opening : Token
  closing : Token

/-- Reads the lexemes in front of the root element up to where it begins. A document type
declaration may stand there once. -/
def readMisc (d : Dtd) (mayDeclare : Bool) (ts : List PrologToken) :
    Except Fault (Dtd × List Char) :=
  match ts with
  | [] => .error ⟨.noElement, []⟩
  | t :: ts =>
    match t.lexeme with
    | .root => .ok (d, t.place)
    | .aside => readMisc d mayDeclare ts
    | .openDeclaration kind =>
      if mayDeclare ∧ kind = "DOCTYPE".toList then
        match takeDoctype d ts with
        | .error f => .error f
        | .ok ⟨d, ts', h⟩ =>
          have := Nat.lt_succ_of_lt h.length_lt
          readMisc d false ts'
      else .error t.unexpected
    | _ => .error t.unexpected
termination_by ts.length
decreasing_by
  · exact Nat.lt_succ_self _
  · assumption

/-- Reads the XML declaration if there is one, and gives whether the document stands alone and the
lexemes after the declaration. -/
def readOpening (ts : List PrologToken) : Except Fault (Bool × List PrologToken) :=
  match ts with
  | [] => .ok (false, [])
  | t :: ts =>
    if t.lexeme = .declaration then
      let inner := (t.place.take (t.place.length - t.rest.length - 2)).drop 5
      match readDeclaration inner with
      | .ok isStandalone => .ok (isStandalone, ts)
      | .error rest =>
        .error ⟨.malformedDeclaration, (t.place.drop 5).drop (inner.length - rest.length)⟩
    else .ok (false, t :: ts)

/-- Reads what stands in front of the root element, and gives the declarations and the text from
the root element on. -/
def readProlog (s : List Char) : Except Fault (Dtd × List Char) := do
  let (isStandalone, ts) ← readOpening (lexProlog s)
  readMisc (Dtd.empty isStandalone) true (ts.filter fun t => t.lexeme != .space)

/-- The fault of what stands behind the root element, where only white space, comments and
instructions may. -/
def epilogFault? (s : List Char) : Option Fault :=
  let ts := (lexProlog s).dropWhile fun t => t.lexeme == .space || t.lexeme == .aside
  ts.head?.map fun t =>
    match t.lexeme with
    | .broken f => f
    | _ => ⟨.junkAfterElement, t.place⟩

/-- The mark that may stand at the very start of a document. -/
def byteOrderMark : Char := Char.ofNat 0xFEFF

namespace Document

/-- The document whose root element starts a text. -/
def ofTokens (d : Dtd) : List Token → Except Fault Document
  | [] => .error ⟨.noElement, []⟩
  | t :: ts =>
    (readRoot (step d .document [] (expandEntity d d.entities.length [])) (t :: ts) []).map
      fun (root, closing) => ⟨root, t, closing⟩

/-- The document that a text without the mark at its start is. -/
def ofBody (s : List Char) : Except Fault Document := do
  let (d, fromRoot) ← readProlog s
  let document ← ofTokens d (lex fromRoot)
  match epilogFault? document.closing.rest with
  | none => return document
  | some f => .error f

/-- The document that characters are. -/
def ofCharacters : List Char → Except Fault Document
  | [] => ofBody []
  | c :: s => ofBody (if c = byteOrderMark then s else c :: s)

/-- The document that a text is. An octet that is left over behind its characters is the beginning
of a further token. -/
def ofText (t : DocumentText) : Except Fault Document :=
  match @ofCharacters t.encoding t.characters with
  | .ok document => if t.hasStray then .error ⟨.unclosedToken, []⟩ else .ok document
  | .error f =>
    if t.hasStray ∧ f.problem = .noElement then .error ⟨.unclosedToken, []⟩ else .error f

end Document

end Netconf.Xml
