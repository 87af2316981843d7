import Netconf.Xml.Fault

/-!
# Namespace scopes

Which namespace each qualifier stands for inside an element. A declaration adds a binding for the
element and all inside it; the binding of the empty qualifier is that of names without one.
-/

namespace Netconf.Xml

/-- The namespace that the qualifier `xml` always stands for. -/
def xmlUri : List Char := "http://www.w3.org/XML/1998/namespace".toList

/-- The namespace of namespace declarations, which no qualifier may stand for. -/
def xmlnsUri : List Char := "http://www.w3.org/2000/xmlns/".toList

/-- The bindings in force, the innermost first. -/
abbrev Scope := List (List Char × List Char)

namespace Scope

/-- The scope of a whole document. -/
def initial : Scope := [("xml".toList, xmlUri)]

/-- The namespace that a qualifier stands for. -/
def uri? (scope : Scope) (qualifier : List Char) : Option (List Char) :=
  match scope.find? fun b => b.1 == qualifier with
  | some (_, uri) => if uri = [] then none else some uri
  | none => none

/-- The scope with a further binding, if that is allowed. Only the empty qualifier can be freed of
its namespace; `xml` and its namespace belong together, and `xmlns` and its namespace cannot be
bound. A brace cannot stand in a namespace. -/
def bind (scope : Scope) (qualifier uri : List Char) : Except Problem Scope :=
  if uri = [] ∧ qualifier ≠ [] then .error .undeclaredQualifier
  else if qualifier = "xmlns".toList then .error .reservedXmlns
  else if '\x7d' ∈ uri then .error .unexpectedToken
  else if qualifier = "xml".toList ∧ uri ≠ xmlUri then .error .reservedXml
  else if qualifier ≠ "xml".toList ∧ (uri = xmlUri ∨ uri = xmlnsUri) then .error .reservedUri
  else .ok ((qualifier, uri) :: scope)

end Scope

/-- The qualifier that an attribute of this name declares a namespace for; the empty one for the
attribute `xmlns` itself. -/
def declaredQualifier? (name : List Char) : Option (List Char) :=
  if name = "xmlns".toList then some []
  else if "xmlns:".toList.isPrefixOf name then some (name.drop 6)
  else none

/-- A name as it is written, split at its colon into the qualifier and the local name. -/
def splitQName (name : List Char) : Option (List Char) × List Char :=
  match name.dropWhile (· != ':') with
  | _ :: base => (some (name.takeWhile (· != ':')), base)
  | [] => (none, name)

end Netconf.Xml
