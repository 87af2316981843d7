import Netconf.Text.Numeral
import Netconf.Xml.Scope
import Netconf.Xml.Tree

/-!
# Writing elements

An element written as a document of its own. All namespaces that occur in it are declared on its
start tag, in the order of the qualifiers chosen for them: a well-known namespace has its usual
qualifier, and another is numbered by how many have been given a qualifier before it. Writing goes
into an element from within writing the one around it, so that room for elements inside one another
is needed; `Element.toDocumentWithin` is what is written where that room is limited.
-/

namespace Netconf.Xml

open Netconf.Text

/-- The namespaces that have a usual qualifier. -/
def wellKnownQualifiers : List (List Char × List Char) :=
  [(xmlUri, "xml".toList),
   ("http://www.w3.org/1999/xhtml".toList, "html".toList),
   ("http://www.w3.org/1999/02/22-rdf-syntax-ns#".toList, "rdf".toList),
   ("http://schemas.xmlsoap.org/wsdl/".toList, "wsdl".toList),
   ("http://www.w3.org/2001/XMLSchema".toList, "xs".toList),
   ("http://www.w3.org/2001/XMLSchema-instance".toList, "xsi".toList),
   ("http://purl.org/dc/elements/1.1/".toList, "dc".toList),
   ("urn:ietf:params:xml:ns:netconf:base:1.0".toList, "nc".toList)]

/-- The usual qualifier of a namespace. -/
def wellKnownQualifier? (uri : List Char) : Option (List Char) :=
  (wellKnownQualifiers.find? fun q => q.1 == uri).map (·.2)

/-- The qualifiers given to namespaces so far, the first first. -/
abbrev Qualifiers := List (List Char × List Char)

namespace Qualifiers

/-- The qualifier of a namespace that has been given one. -/
def qualifier? (qs : Qualifiers) (uri : List Char) : Option (List Char) :=
  (qs.find? fun q => q.1 == uri).map (·.2)

/-- Gives the namespace of a name a qualifier, unless it has one or needs none. -/
def add (qs : Qualifiers) (name : Name) : Qualifiers :=
  if name.space = [] ∨ name.space = xmlUri ∨ (qs.qualifier? name.space).isSome then qs
  else
    qs ++ [(name.space,
      (wellKnownQualifier? name.space).getD ("ns".toList ++ decimal qs.length))]

/-- Gives the namespaces of a start tag qualifiers. -/
def addTag (qs : Qualifiers) (tag : Tag) : Qualifiers :=
  (tag.name :: tag.attributes.map (·.name)).foldl add qs

/-- Gives all namespaces of an item of content qualifiers, in the order of the document. -/
def addNode (qs : Qualifiers) : Node → Qualifiers
  | .char _ => qs
  | .element tag content => addContent (qs.addTag tag) content
where
  /-- Gives all namespaces of content qualifiers. -/
  addContent (qs : Qualifiers) : List Node → Qualifiers
    | [] => qs
    | n :: ns => addContent (qs.addNode n) ns

/-- A name with the qualifier of its namespace. -/
def write (qs : Qualifiers) (name : Name) : List Char :=
  if name.space = [] then name.base
  else
    let qualifier :=
      if name.space = xmlUri then "xml".toList else (qs.qualifier? name.space).getD []
    qualifier ++ ':' :: name.base

end Qualifiers

/-- A character of text as it is written. -/
def escapeTextChar (c : Char) : List Char :=
  if c = '&' then "&amp;".toList
  else if c = '<' then "&lt;".toList
  else if c = '>' then "&gt;".toList
  else [c]

/-- A text as it is written between tags. -/
def escapeText (s : List Char) : List Char := s.flatMap escapeTextChar

/-- A character of a value as it is written. White space that reading would change is written by
number. -/
def escapeValueChar (c : Char) : List Char :=
  if c = '\x22' then "&quot;".toList
  else if c = '\r' then "&#13;".toList
  else if c = '\n' then "&#10;".toList
  else if c = '\t' then "&#09;".toList
  else escapeTextChar c

/-- A value as it is written between double quotes. -/
def escapeValue (s : List Char) : List Char := s.flatMap escapeValueChar

/-- An attribute as it is written, with a space in front of it. -/
def writeAttribute (name value : List Char) : List Char :=
  ' ' :: name ++ "=\"".toList ++ escapeValue value ++ "\"".toList

/-- Whether a text comes no later than another when they are sorted by code points. -/
def sortsNoLater : List Char → List Char → Bool
  | [], _ => true
  | _ :: _, [] => false
  | c :: s, d :: t => c.toNat < d.toNat || (c == d && sortsNoLater s t)

/-- The declarations of all given qualifiers, in the order of the qualifiers. -/
def Qualifiers.declarations (qs : Qualifiers) : List Char :=
  (qs.mergeSort fun a b => sortsNoLater a.2 b.2).flatMap fun q =>
    writeAttribute ("xmlns:".toList ++ q.2) q.1

/-- The attributes of a start tag as they are written. -/
def writeAttributes (qs : Qualifiers) (tag : Tag) : List Char :=
  tag.attributes.flatMap fun a => writeAttribute (qs.write a.name) a.value

/-- An element as it is written, given what stands in front of its attributes and what its content
is written as. An element without content has a single tag. -/
def writeElement (qs : Qualifiers) (tag : Tag) (declarations content : List Char) : List Char :=
  '<' :: qs.write tag.name ++ declarations ++ writeAttributes qs tag ++
    (if content = [] then " />".toList
    else '>' :: content ++ "</".toList ++ qs.write tag.name ++ ">".toList)

/-- An item of content as it is written inside another element. -/
def writeNode (qs : Qualifiers) : Node → List Char
  | .char c => escapeTextChar c
  | .element tag content => writeElement qs tag [] (writeContent content)
where
  /-- Content as it is written. -/
  writeContent : List Node → List Char
    | [] => []
    | n :: ns => writeNode qs n ++ writeContent ns

/-- An item of content as it is written with room for so many elements inside one another, if that
is enough. -/
def writeNodeWithin (qs : Qualifiers) (room : Nat) : Node → Option (List Char)
  | .char c => some (escapeTextChar c)
  | .element tag content =>
    match room with
    | 0 => none
    | room + 1 => (writeContentWithin room content).map (writeElement qs tag [])
where
  /-- Content as it is written with that room. -/
  writeContentWithin (room : Nat) : List Node → Option (List Char)
    | [] => some []
    | n :: ns => do
      let s ← writeNodeWithin qs room n
      let t ← writeContentWithin room ns
      return s ++ t

namespace Element

/-- The qualifiers that an element needs as a document of its own. -/
def qualifiers (e : Element) : Qualifiers := .addNode [] (.element e.tag e.content)

/-- An element as a document of its own. -/
def toDocument (e : Element) : List Char :=
  writeElement e.qualifiers e.tag e.qualifiers.declarations
    (writeNode.writeContent e.qualifiers e.content)

/-- An element as a document of its own, written with room for so many elements inside one another,
if that is enough. -/
def toDocumentWithin (room : Nat) (e : Element) : Option (List Char) :=
  match room with
  | 0 => none
  | room + 1 =>
    (writeNodeWithin.writeContentWithin e.qualifiers room e.content).map
      (writeElement e.qualifiers e.tag e.qualifiers.declarations)

end Element

end Netconf.Xml
