/-!
# Element trees

What a document means: elements with their attributes and their content. Content is a sequence of
characters and elements, so that the text between two elements needs no joining and has only one
form. Comments, instructions and the boundaries of entities and character data sections are gone.
-/

namespace Netconf.Xml

/-- A name in a namespace. The empty namespace stands for none. -/
structure Name where
  space : List Char
  base : List Char
  deriving DecidableEq

/-- An attribute with its value. -/
structure Attribute where
  name : Name
  value : List Char
  deriving DecidableEq

/-- The name and the attributes of an element, in order. -/
structure Tag where
  name : Name
  attributes : List Attribute
  deriving DecidableEq

/-- An item of content. -/
inductive Node where
  | char (c : Char)
  | element (tag : Tag) (content : List Node)

/-- An element. -/
structure Element where
  tag : Tag
  content : List Node

/-- The text at the start of content, up to the first element. -/
def leadingText : List Node → List Char
  | .char c :: nodes => c :: leadingText nodes
  | _ => []

/-- The elements directly in content, each with the text behind it up to the next one. -/
def childrenWithTails : List Node → List (Element × List Char)
  | [] => []
  | .char _ :: nodes => childrenWithTails nodes
  | .element tag content :: nodes =>
    (⟨tag, content⟩, leadingText nodes) :: childrenWithTails nodes

namespace Element

/-- The name of an element. -/
def name (e : Element) : Name := e.tag.name

/-- The text of an element in front of its first child. -/
def text (e : Element) : List Char := leadingText e.content

/-- The children of an element, each with the text behind it up to the next one. -/
def children (e : Element) : List (Element × List Char) := childrenWithTails e.content

end Element

end Netconf.Xml
