import Netconf.Log
import Netconf.Reply.Payload
import Netconf.Reply.RpcError
import Netconf.Reply.Success
import Netconf.Xml.Document
import Netconf.Xml.Printer

/-!
# Replies

A reply is an XML document with the root `rpc-reply`. `Reply.ofText` reads one: the errors that it
reports come from its elements, the success mark and the payload from its text. The details of an
error are written again as they are read, and where the room for that is limited, `parseWithin` may
run out of it.
-/

namespace Netconf

open Netconf.Text Netconf.Xml

/-- A reply. -/
structure Reply where
  /-- The id of the request that the caller takes it for a reply to. -/
  messageId : List Char
  /-- The errors that are reported, in their order. -/
  errors : List RpcError
  /-- Whether success is reported. -/
  ok : Bool
  /-- The text that was read. -/
  rawReply : List Char
  /-- The text inside the root element. -/
  data : List Char
  deriving DecidableEq

/-- Why a text is no reply. -/
inductive ParseProblem where
  /-- It is no XML document. -/
  | malformed (f : Fault)
  /-- Its root element has this name instead. -/
  | otherRoot (name : List Char)
  /-- The octets are no text. -/
  | notText (reason : Utf8.Malformed)
  deriving DecidableEq

/-- A text that is no reply, and why. -/
structure ParseError where
  problem : ParseProblem
  text : List Char
  deriving DecidableEq

/-- What is wrong with the document or the octets, if anything is. -/
def ParseError.detail (e : ParseError) : List Char :=
  match e.problem with
  | .malformed f => f.message (DocumentText.ofText (trim e.text)).characters
  | .otherRoot _ => []
  | .notText reason => reason.message

/-- The report on a text that is no reply. -/
def ParseError.message (e : ParseError) : List Char :=
  match e.problem with
  | .otherRoot name =>
    "expected element type <rpc-reply> but have <".toList ++ name ++ ">".toList
  | _ => "failed to parse rpc-reply: ".toList ++ e.detail

/-- Why nothing comes out where room is limited. -/
inductive Abort (ε : Type) where
  | refused (e : ε)
  /-- Elements stand deeper inside one another than there is room for. -/
  | outOfRoom
  deriving DecidableEq

/-- The same with another reason to refuse. -/
def Abort.map {ε ε' : Type} (f : ε → ε') : Abort ε → Abort ε'
  | .refused e => .refused (f e)
  | .outOfRoom => .outOfRoom

namespace RpcError

/-- The field that a child of an error element of this name has the text of. -/
def fieldOfName? (name : List Char) : Option Field :=
  if name = "error-type".toList then some .type
  else if name = "error-tag".toList then some .tag
  else if name = "error-severity".toList then some .severity
  else if name = "error-path".toList then some .path
  else if name = "error-message".toList then some .message
  else none

/-- Takes a child of an error element up, with the text behind it. Details are kept as a document,
that text included; of another field its text without outer blanks. -/
def addChild (e : RpcError) (child : Element) (tail : List Char) : RpcError :=
  if child.name.base = "error-info".toList then
    e.set .info (some (trim (child.toDocument ++ escapeText tail)))
  else
    match fieldOfName? child.name.base with
    | some field => e.set field (some (trim child.text))
    | none => e

/-- The error that an element reports. Of children with the same name the last counts. -/
def ofElement (element : Element) : RpcError :=
  element.children.foldl (fun e child => e.addChild child.1 child.2) blank

/-- Takes a child of an error element up, with room for so many elements inside one another when
details are written, if that is enough. -/
def addChildWithin (room : Nat) (e : RpcError) (child : Element) (tail : List Char) :
    Option RpcError :=
  if child.name.base = "error-info".toList then
    (child.toDocumentWithin room).map fun document =>
      e.set .info (some (trim (document ++ escapeText tail)))
  else some (e.addChild child tail)

/-- The error that an element reports, with room for so many elements inside one another. -/
def ofElementWithin (room : Nat) (element : Element) : Option RpcError :=
  element.children.foldlM (fun e child => e.addChildWithin room child.1 child.2) blank

end RpcError

namespace Reply

/-- The root element of the reply that a text is. Blanks around the document do not matter. -/
def rootOf (s : List Char) : Except ParseError Element :=
  match Document.ofText (.ofText (trim s)) with
  | .error f => .error ⟨.malformed f, s⟩
  | .ok document =>
    let name := document.root.name.base
    if name = rootName then .ok document.root else .error ⟨.otherRoot name, s⟩

/-- The children of a root element that report errors. -/
def errorChildren (root : Element) : List (Element × List Char) :=
  root.children.filter fun child => child.1.name.base == "rpc-error".toList

/-- The errors that a root element reports: those of its own children. -/
def errorsOf (root : Element) : List RpcError :=
  (errorChildren root).map fun child => RpcError.ofElement child.1

/-- The errors that a root element reports, with room for so many elements inside one another. -/
def errorsWithin (room : Nat) (root : Element) : Option (List RpcError) :=
  (errorChildren root).mapM fun child => RpcError.ofElementWithin room child.1

/-- The reply with these errors that a text is, without a message id. -/
def ofErrors (s : List Char) (errors : List RpcError) : Reply :=
  ⟨[], errors, reportsSuccess s, s, payload s⟩

/-- The reply that a text is, without a message id. -/
def ofText (s : List Char) : Except ParseError Reply :=
  (rootOf s).map fun root => ofErrors s (errorsOf root)

/-- What is reported on a text that is no reply: that it is no document, if that is so. -/
def entriesOn (e : ParseError) : List LogEntry :=
  match e.problem with
  | .malformed _ => [⟨.error, .reply, e.message⟩]
  | .otherRoot _ => []
  | .notText _ => [⟨.error, .reply, "failed to decode rpc-reply: ".toList ++ e.detail⟩]

/-- A result about a text, with what is reported on it if it is no reply. -/
def logged {α : Type} (result : Except ParseError α) : Logged (Except ParseError α) :=
  match result with
  | .error e => ⟨entriesOn e, result⟩
  | .ok _ => ⟨[], result⟩

/-- The reply that a text is, with a report if it is none. -/
def parse (s : List Char) : Logged (Except ParseError Reply) := logged (ofText s)

/-- The reply that a text is, with a report if it is none, and with room for so many elements inside
one another when details are written. That the room is used up is not reported. -/
def parseWithin (room : Nat) (s : List Char) : Logged (Except (Abort ParseError) Reply) :=
  ((logged (rootOf s)).mapError .refused).andThen fun root =>
    .silent (match errorsWithin room root with
      | some errors => .ok (ofErrors s errors)
      | none => .error .outOfRoom)

/-- The first error of a reply. -/
def error? (r : Reply) : Option RpcError := r.errors.head?

/-- The first error of a reply that is fatal to a caller who counts warnings or does not. -/
def fatalError? (r : Reply) (warningsCount : Bool) : Option RpcError :=
  RpcError.firstFatal? r.errors warningsCount

end Reply

end Netconf
