import Netconf.Xml.StartTag

/-!
# What a document type declares

The entities and attributes that a document's own declarations define. The first declaration of
each counts. A document may refer to declarations that are kept elsewhere and are not read; then
an entity without a declaration may still be defined there.
-/

namespace Netconf.Xml

/-- What an entity stands for. -/
inductive Entity where
  /-- A replacement text, in which references other than to characters are still there. -/
  | internal (text : List Char)
  /-- A text kept elsewhere. -/
  | external
  /-- Something kept elsewhere that is no XML. -/
  | binary
  deriving DecidableEq

/-- The declaration of an attribute for the elements of a name. -/
structure AttributeDeclaration where
  element : List Char
  name : List Char
  /-- Whether the value is a sequence of tokens, in which the amount of white space is moot. -/
  isTokenized : Bool
  /-- The value where the attribute is left out, if there is one. -/
  default : Option (List Char)
  deriving DecidableEq

/-- The declarations of a document. -/
structure Dtd where
  /-- The entities, in the order of their declarations. -/
  entities : List (List Char × Entity)
  /-- The attributes, in the order of their declarations. -/
  attributes : List AttributeDeclaration
  /-- Whether the document says that it stands alone. -/
  isStandalone : Bool
  /-- Whether there are declarations elsewhere. -/
  hasUnread : Bool
  /-- Whether declarations still count: behind a reference to declarations elsewhere they do only
  in a document that stands alone. -/
  isCounting : Bool
  deriving DecidableEq

namespace Dtd

/-- No declarations. -/
def empty (isStandalone : Bool) : Dtd := ⟨[], [], isStandalone, false, true⟩

/-- Whether every entity has to be declared in the document. -/
def isComplete (d : Dtd) : Bool := !d.hasUnread || d.isStandalone

/-- What an entity is declared to stand for. -/
def entity? (d : Dtd) (name : List Char) : Option Entity :=
  (d.entities.find? fun e => e.1 == name).map (·.2)

/-- The declaration of an attribute of an element. -/
def attribute? (d : Dtd) (element name : List Char) : Option AttributeDeclaration :=
  d.attributes.find? fun a => a.element == element && a.name == name

/-- Adds an entity. One that is declared already, or needs no declaration, stays as it is. -/
def declareEntity (d : Dtd) (name : List Char) (e : Entity) : Dtd :=
  if d.isCounting && (predefined? name).isNone && (d.entity? name).isNone then
    { d with entities := d.entities ++ [(name, e)] }
  else d

/-- Adds an attribute. One that is declared already stays as it is. -/
def declareAttribute (d : Dtd) (a : AttributeDeclaration) : Dtd :=
  if d.isCounting && (d.attribute? a.element a.name).isNone then
    { d with attributes := d.attributes ++ [a] }
  else d

end Dtd

end Netconf.Xml
