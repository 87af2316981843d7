import Netconf.Xml.Scan

/-!
# The XML declaration

What a document says about itself in front of everything else: the version of XML, the encoding,
and whether it stands alone. They come in this order, the last two may be left out, and they are
written like attributes but with fewer characters. Only the last one has a meaning here.
-/

namespace Netconf.Xml

/-- One part of a declaration, with the places where its name and its value begin. -/
structure DeclarationPart where
  name : List Char
  namePlace : List Char
  value : List Char
  valuePlace : List Char
  deriving DecidableEq

/-- The characters of values. -/
def isDeclarationChar (c : Char) : Bool := c.isAlphanum || c == '.' || c == '-' || c == '_'

/-- The characters of names: any of ASCII that do not end them. -/
def isDeclarationNameChar (c : Char) : Bool := c.toNat < 0x80 && c != '=' && !isSpace c

/-- The part at the start of the text, if the text is not used up, or the place of what does not
fit. White space stands in front of each part. -/
def scanDeclarationPart (s : List Char) :
    Except (List Char) (Option (DeclarationPart × List Char)) :=
  let start := skipSpace s
  if start = [] then .ok none
  else if !(s.head?.any isSpace) then .error s
  else
    let name := start.takeWhile isDeclarationNameChar
    let behind := skipSpace (start.dropWhile isDeclarationNameChar)
    match behind with
    | '=' :: rest =>
      if name = [] then .error start
      else
        match skipSpace rest with
        | quote :: inner =>
          if quote = '\x22' ∨ quote = '\x27' then
            let value := inner.takeWhile isDeclarationChar
            match inner.dropWhile isDeclarationChar with
            | c :: rest =>
              if c = quote then .ok (some (⟨name, start, value, inner⟩, rest))
              else .error (c :: rest)
            | [] => .error []
          else .error (quote :: inner)
        | [] => .error []
    | _ => .error behind

/-- Whether the document stands alone, from the part that says so and what follows it. -/
def readStandalone (part : DeclarationPart) (rest : List Char) : Except (List Char) Bool :=
  if part.name ≠ "standalone".toList then .error part.namePlace
  else if part.value ≠ "yes".toList ∧ part.value ≠ "no".toList then .error part.valuePlace
  else if skipSpace rest ≠ [] then .error (skipSpace rest)
  else .ok (part.value = "yes".toList)

/-- Whether the document stands alone, from what a declaration says between `<?xml` and `?>`, or
the place of what does not fit. -/
def readDeclaration (s : List Char) : Except (List Char) Bool := do
  match ← scanDeclarationPart s with
  | none => .error s
  | some (version, rest) =>
    if version.name ≠ "version".toList then .error version.namePlace
    else
      match ← scanDeclarationPart rest with
      | none => return false
      | some (part, rest) =>
        if part.name ≠ "encoding".toList then readStandalone part rest
        else if !(part.value.head?.any Char.isAlpha) then .error part.valuePlace
        else
          match ← scanDeclarationPart rest with
          | none => return false
          | some (part, rest) => readStandalone part rest

end Netconf.Xml
