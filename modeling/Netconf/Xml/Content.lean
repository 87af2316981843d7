import Netconf.Xml.Markup
import Netconf.Xml.Resolve

/-!
# Content

From the tokens of a document to its elements. The elements that are open are kept on a stack, the
innermost first; each token adds to the innermost, opens a further one or closes it. The text of
an entity is read in the same way where a reference stands, and never closes what was open before.
-/

namespace Netconf.Xml

open Netconf.Outcome

variable [Encoding]

/-- An element that is still open. -/
structure Frame where
  /-- The name as it is written in the start tag. -/
  written : List Char
  tag : Tag
  /-- The scope inside the element. -/
  scope : Scope
  /-- The content so far, the last item first. -/
  content : List Node

/-- The open elements, the innermost first. -/
abbrev Stack := List Frame

namespace Stack

/-- The scope inside the innermost open element. -/
def scope : Stack → Scope
  | [] => Scope.initial
  | f :: _ => f.scope

/-- Adds items, the last first, to the content of the innermost open element. -/
def add (items : List Node) : Stack → Stack
  | [] => []
  | f :: fs => { f with content := items ++ f.content } :: fs

/-- Adds text to the content of the innermost open element. -/
def addText (s : List Char) (stack : Stack) : Stack := stack.add (s.map .char).reverse

end Stack

/-- Where the reading of content stands after a token. -/
inductive Progress where
  /-- Elements are open. -/
  | inside (stack : Stack)
  /-- The root element is complete. -/
  | complete (root : Element)

/-- Adds a complete element to the one around it. -/
def Stack.addElement (e : Element) : Stack → Progress
  | [] => .complete e
  | f :: fs => .inside (Stack.add [.element e.tag e.content] (f :: fs))

/-- Closes the innermost open element, whose name has to be that of the end tag. -/
def Stack.close (name place : List Char) : Stack → Except Fault Progress
  | [] => .error ⟨.mismatchedTag, place⟩
  | f :: fs =>
    if f.written = name then .ok (Stack.addElement ⟨f.tag, f.content.reverse⟩ fs)
    else .error ⟨.mismatchedTag, place⟩

/-- A reference as it is written, of which at most a hundred octets are shown. -/
def shownReference (name : List Char) : List Char :=
  Utf8.decodeLossy ((Utf8.encode ('&' :: name ++ [';'])).take 100)

/-- What a token does to the open elements, given how the text of an entity is read. -/
def step (d : Dtd) (origin : Origin) (opened : List (List Char))
    (expand : (name text : List Char) → Stack → Except Problem Stack) (t : Token) (stack : Stack) :
    Except Fault Progress :=
  match t.markup with
  | .text s => .ok (.inside (stack.addText (origin.text s)))
  | .cdata s => .ok (.inside (stack.addText (origin.text s)))
  | .aside => .ok (.inside stack)
  | .declaration => .error ⟨.misplacedDeclaration, t.place⟩
  | .broken f => .error f
  | .startTag tag => do
    let (resolved, scope) ← resolveTag d origin opened stack.scope t.place tag
    if tag.isEmpty then return stack.addElement ⟨resolved, []⟩
    else return .inside (⟨tag.name, resolved, scope, []⟩ :: stack)
  | .endTag name => stack.close name (t.place.drop 2)
  | .reference (.character n) =>
    match charOfNumber? n with
    | none => .error ⟨.invalidCharacterNumber, t.place⟩
    | some c => .ok (.inside (stack.addText [c]))
  | .reference (.entity name) =>
    match predefined? name with
    | some c => .ok (.inside (stack.addText [c]))
    | none =>
      match d.entity? name with
      | none =>
        .error ⟨if d.isComplete then .undefinedEntity else .unreadEntity (shownReference name),
          t.place⟩
      | some e =>
        if opened.contains name then .error ⟨.recursiveEntity, t.place⟩
        else
          match e with
          | .binary => .error ⟨.binaryEntity, t.place⟩
          | .external => .error ⟨.unreadEntity (shownReference name), t.place⟩
          | .internal text =>
            ((expand name text stack).map .inside).mapError (⟨·, t.place⟩)

/-- Whether a token has the text of a further entity read in its place. -/
def Token.readsEntity (t : Token) : Bool :=
  match t.markup with
  | .reference (.entity name) => (predefined? name).isNone
  | _ => false

/-- Reads the tokens of an entity's text. They must not close an element that was open before,
`depth` in number, nor leave a further one open. The second is looked at where the text ends, but
not if a further entity is read there last: then the text around has to close what is open. -/
def readInner (step : Token → Stack → Except Fault Progress) (depth : Nat) :
    List Token → Stack → Except Problem Stack
  | [], stack => if stack.length = depth then .ok stack else .error .asynchronousEntity
  | t :: ts, stack =>
    match t.markup, decide (stack.length = depth) with
    | .endTag _, true => .error .asynchronousEntity
    | _, _ =>
      match step t stack with
      | .error f => .error f.problem
      | .ok (.complete _) => .error .asynchronousEntity
      | .ok (.inside stack) =>
        if ts.isEmpty && t.readsEntity then .ok stack else readInner step depth ts stack

/-- Reads the text of an entity where a reference stands to it. The entities in `opened` are being
read; at most `budget` more can be. -/
def expandEntity (d : Dtd) : (budget : Nat) → (opened : List (List Char)) →
    (name text : List Char) → Stack → Except Problem Stack
  | 0, _, _, _, _ => .error .recursiveEntity
  | budget + 1, opened, name, text, stack =>
    readInner (step d .entity (name :: opened) (expandEntity d budget (name :: opened)))
      stack.length (@lex Origin.entity.encoding text) stack

/-- Reads tokens of a document until its root element is complete, and returns the root and the
token that completes it. -/
def readRoot (step : Token → Stack → Except Fault Progress) :
    List Token → Stack → Except Fault (Element × Token)
  | [], _ => .error ⟨.noElement, []⟩
  | t :: ts, stack =>
    match step t stack with
    | .error f => .error f
    | .ok (.complete root) => .ok (root, t)
    | .ok (.inside stack) => readRoot step ts stack

end Netconf.Xml
