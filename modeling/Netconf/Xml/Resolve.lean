import Netconf.Xml.AttributeValue
import Netconf.Xml.Scope
import Netconf.Xml.Tree

/-!
# The meaning of start tags

From a start tag as it is written to the name and the attributes it stands for: values are worked
out, left out attributes get their declared values, namespace declarations open a scope and names
are looked up in it. Problems are found in this order too.
-/

namespace Netconf.Xml

open Netconf.Outcome

variable [Encoding]

/-- The attributes of a tag so far. -/
structure TagReading where
  /-- The names that have occurred. -/
  seen : List (List Char)
  /-- The attributes that are no namespace declarations, by the names they are written with. -/
  attributes : List (List Char × List Char)
  /-- The scope with the namespace declarations so far. -/
  scope : Scope

namespace TagReading

/-- Takes an attribute up, or a namespace declaration into the scope. -/
def add (r : TagReading) (name value : List Char) : Except Problem TagReading :=
  match declaredQualifier? name with
  | some qualifier => do
    let scope ← r.scope.bind qualifier value
    return { r with seen := name :: r.seen, scope }
  | none => .ok { r with seen := name :: r.seen, attributes := r.attributes ++ [(name, value)] }

/-- Takes the written attributes of a tag up, in order. A name that occurs twice is reported where
it occurs again, and what is wrong with a value where it lies or else at the tag. -/
def addWritten (d : Dtd) (origin : Origin) (opened : List (List Char)) (element place : List Char) :
    TagReading → List RawAttribute → Except Fault TagReading
  | r, [] => .ok r
  | r, a :: as =>
    if r.seen.contains a.name then .error ⟨.duplicateAttribute, a.place⟩
    else do
      let v ← (partsValue (d.readEntity opened) (origin.value a.value)).mapError
        fun f => ⟨f.problem, f.place.getD place⟩
      let isTokenized := (d.attribute? element a.name).any (·.isTokenized)
      let r ← (r.add a.name (settleSpaces isTokenized v)).mapError (⟨·, place⟩)
      addWritten d origin opened element place r as

/-- Takes the declared values of left out attributes up, in the order of their declarations. -/
def addDeclared (element : List Char) :
    TagReading → List AttributeDeclaration → Except Problem TagReading
  | r, [] => .ok r
  | r, a :: as =>
    match a.default with
    | some value =>
      if a.element == element && !r.seen.contains a.name then do
        let r ← r.add a.name value
        addDeclared element r as
      else addDeclared element r as
    | none => addDeclared element r as

end TagReading

/-- The name of an attribute. Without a qualifier it is in no namespace. -/
def Scope.attributeName (scope : Scope) (written : List Char) : Except Problem Name :=
  match splitQName written with
  | (none, base) => .ok ⟨[], base⟩
  | (some qualifier, base) =>
    match scope.uri? qualifier with
    | some uri => .ok ⟨uri, base⟩
    | none => .error .unboundQualifier

/-- The name of an element. Without a qualifier it is in the namespace of the empty one. -/
def Scope.elementName (scope : Scope) (written : List Char) : Except Problem Name :=
  match splitQName written with
  | (none, base) => .ok ⟨(scope.uri? []).getD [], base⟩
  | (some qualifier, base) =>
    match scope.uri? qualifier with
    | some uri => .ok ⟨uri, base⟩
    | none => .error .unboundQualifier

/-- The attributes with their names looked up, no name twice. -/
def Scope.attributes (scope : Scope) (earlier : List Name) :
    List (List Char × List Char) → Except Problem (List Attribute)
  | [] => .ok []
  | (written, value) :: rest => do
    let name ← scope.attributeName written
    if earlier.contains name then .error .duplicateAttribute
    else
      let more ← scope.attributes (name :: earlier) rest
      return ⟨name, value⟩ :: more

/-- The meaning of a tag of the given name whose written attributes have been taken up. -/
def TagReading.finish (d : Dtd) (element : List Char) (r : TagReading) :
    Except Problem (Tag × Scope) := do
  let r ← r.addDeclared element d.attributes
  let attributes ← r.scope.attributes [] r.attributes
  let name ← r.scope.elementName element
  return (⟨name, attributes⟩, r.scope)

/-- The meaning of a start tag in a scope, with the scope inside its element. -/
def resolveTag (d : Dtd) (origin : Origin) (opened : List (List Char)) (scope : Scope)
    (place : List Char) (t : RawTag) : Except Fault (Tag × Scope) := do
  let r ← TagReading.addWritten d origin opened t.name place ⟨[], [], scope⟩ t.attributes
  (r.finish d t.name).mapError (⟨·, place⟩)

end Netconf.Xml
