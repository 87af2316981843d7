import Netconf.Xml.AttributeValue
import Netconf.Xml.Lexeme

/-!
# Document type declarations

The declarations of a document are read from lexemes, white space between them left out. Each
reader takes the lexemes of one construct and hands on the others; a lexeme that does not fit is
the fault.
-/

namespace Netconf.Xml

/-- A list is what is left of another one when at least one item is taken from its start. -/
inductive Behind {α : Type} (rest : List α) : List α → Prop where
  | here (t : α) : Behind rest (t :: rest)
  | further (t : α) {ts : List α} : Behind rest ts → Behind rest (t :: ts)

namespace Behind

variable {α : Type} {a b c : List α}

theorem trans (h : Behind a b) (h' : Behind b c) : Behind a c := by
  induction h' with
  | here t => exact .further t h
  | further t _ ih => exact .further t ih

theorem length_lt (h : Behind a b) : a.length < b.length := by
  induction h with
  | here t => exact Nat.lt_succ_self _
  | further t _ ih => exact Nat.lt_succ_of_lt ih

end Behind

variable [Encoding]

/-- What a reader makes of the lexemes at the start of a list, and the others. It has taken at
least one. -/
structure Parsed (ts : List PrologToken) (α : Type) where
  value : α
  rest : List PrologToken
  behind : Behind rest ts

/-- The fault that a lexeme is where it does not fit. -/
def PrologToken.unexpected (t : PrologToken) : Fault :=
  match t.lexeme with
  | .broken f => f
  | .parameterReference => ⟨.misplacedParameterEntity, t.place⟩
  | .declaration => ⟨.misplacedDeclaration, t.place⟩
  | _ => ⟨.unexpectedToken, t.place⟩

/-- Takes one lexeme of a kind. -/
def take {α : Type} (p : PrologToken → Option α) (ts : List PrologToken) :
    Except Fault (Parsed ts α) :=
  match ts with
  | [] => .error ⟨.noElement, []⟩
  | t :: ts =>
    match p t with
    | some a => .ok ⟨a, ts, .here t⟩
    | none => .error t.unexpected

namespace PrologToken

/-- A given lexeme. -/
def is (l : Lexeme) (t : PrologToken) : Option Unit := if t.lexeme = l then some () else none

/-- A name without a colon. -/
def plainName? (t : PrologToken) : Option (List Char) :=
  match t.lexeme with
  | .name .plain name => some name
  | _ => none

/-- A name with or without a qualifier. -/
def qName? (t : PrologToken) : Option (List Char) :=
  match t.lexeme with
  | .name .plain name => some name
  | .name .qualified name => some name
  | _ => none

/-- Any sequence of name characters. -/
def anyName? (t : PrologToken) : Option (List Char) :=
  match t.lexeme with
  | .name _ name => some name
  | _ => none

/-- A text in quotes, with its lexeme. -/
def literal? (t : PrologToken) : Option (List Char × PrologToken) :=
  match t.lexeme with
  | .literal s => some (s, t)
  | _ => none

/-- The place in a document that follows `rest`, which ends the given text in quotes. -/
def placeIn (t : PrologToken) (inner rest : List Char) : List Char :=
  t.place.tail.drop (inner.length - rest.length)

end PrologToken

/-! ## Literals -/

/-- The characters of public identifiers. -/
def isPublicChar (c : Char) : Bool :=
  c.isAlphanum || "-_.'()+,/=?;!*%#:$@ \r\n".toList.contains c

/-- Takes a public identifier. -/
def takePublicId (ts : List PrologToken) : Except Fault (Parsed ts Unit) := do
  let p ← take PrologToken.literal? ts
  let (s, t) := p.value
  match s.dropWhile isPublicChar with
  | [] => return ⟨(), p.rest, p.behind⟩
  | rest => .error ⟨.malformedPublicId, t.placeIn s rest⟩

/-- The replacement text of an entity that is declared with the given one, or a problem and the
rest of the text where it lies. References to characters are replaced, those to entities stay, and
parameter entities cannot be referred to. -/
def replacementText (s : List Char) : Except (Problem × List Char) (List Char) :=
  match s with
  | [] => .ok []
  | '&' :: tail =>
    match h : Reference.scan tail with
    | .error (.invalid rest) => .error (.invalidToken, rest)
    | .error _ => .error (.invalidToken, '&' :: tail)
    | .ok (.entity name, rest) =>
      have := Reference.length_of_scan h
      (replacementText rest).map ('&' :: name ++ ';' :: ·)
    | .ok (.character n, rest) =>
      have := Reference.length_of_scan h
      match charOfNumber? n with
      | none => .error (.invalidCharacterNumber, '&' :: tail)
      | some c => (replacementText rest).map (c :: ·)
  | '%' :: tail =>
    match scanPercent tail with
    | .error (.invalid rest) => .error (.invalidToken, rest)
    | .error _ => .error (.invalidToken, '%' :: tail)
    | .ok (.percent, rest) => .error (.invalidToken, rest)
    | .ok _ => .error (.misplacedParameterEntity, '%' :: tail)
  | '\r' :: '\n' :: tail => (replacementText tail).map ('\n' :: ·)
  | c :: tail => (replacementText tail).map ((if c = '\r' then '\n' else c) :: ·)
termination_by s.length

/-- Takes the text that an entity is declared with. It is only looked at where declarations
count. -/
def takeReplacement (d : Dtd) (ts : List PrologToken) : Except Fault (Parsed ts (List Char)) := do
  let p ← take PrologToken.literal? ts
  let (s, t) := p.value
  if d.isCounting then
    match replacementText s with
    | .ok text => return ⟨text, p.rest, p.behind⟩
    | .error (problem, rest) => .error ⟨problem, t.placeIn s rest⟩
  else return ⟨[], p.rest, p.behind⟩

/-- Takes the value that an attribute is declared with. It is only looked at where declarations
count. -/
def takeDefault (d : Dtd) (isTokenized : Bool) (ts : List PrologToken) :
    Except Fault (Parsed ts (Option (List Char))) := do
  let p ← take PrologToken.literal? ts
  let (s, t) := p.value
  if d.isCounting then
    match textValue .document (d.readEntity []) s with
    | .ok v => return ⟨some (settleSpaces isTokenized v), p.rest, p.behind⟩
    | .error f => .error ⟨f.problem, (f.place.map (t.placeIn s)).getD t.place⟩
  else return ⟨none, p.rest, p.behind⟩

/-! ## Entities and notations -/

/-- How something that is kept elsewhere is referred to: by a system identifier, or by a public
one. -/
inductive ExternalKind where
  | systemId
  | publicId

/-- The word that an external identifier begins with. -/
def PrologToken.externalKind? (t : PrologToken) : Option ExternalKind :=
  if t.lexeme = .name .plain "SYSTEM".toList then some .systemId
  else if t.lexeme = .name .plain "PUBLIC".toList then some .publicId
  else none

/-- Takes an external identifier: a system identifier, with a public one in front of it or not. -/
def takeExternalId (ts : List PrologToken) : Except Fault (Parsed ts Unit) := do
  let ⟨kind, ts₁, h₁⟩ ← take PrologToken.externalKind? ts
  match kind with
  | .systemId =>
    let ⟨_, ts₂, h₂⟩ ← take PrologToken.literal? ts₁
    return ⟨(), ts₂, h₂.trans h₁⟩
  | .publicId =>
    let ⟨_, ts₂, h₂⟩ ← takePublicId ts₁
    let ⟨_, ts₃, h₃⟩ ← take PrologToken.literal? ts₂
    return ⟨(), ts₃, h₃.trans (h₂.trans h₁)⟩

/-- Whether a text in quotes comes next. -/
def literalIsNext (ts : List PrologToken) : Bool := ts.head?.any (·.literal?.isSome)

/-- Whether a given lexeme comes next. -/
def isNext (l : Lexeme) (ts : List PrologToken) : Bool := ts.head?.any (·.lexeme == l)

/-- Takes the end of a declaration. -/
def takeClose (ts : List PrologToken) : Except Fault (Parsed ts Unit) :=
  take (PrologToken.is .closeDeclaration) ts

/-- Takes the declaration of an entity behind its opening. -/
def takeEntityDeclaration (d : Dtd) (ts : List PrologToken) : Except Fault (Parsed ts Dtd) := do
  if isNext .percent ts then
    let ⟨_, ts₁, h₁⟩ ← take (PrologToken.is .percent) ts
    let ⟨_, ts₂, h₂⟩ ← take PrologToken.plainName? ts₁
    let ⟨_, ts₃, h₃⟩ ←
      if literalIsNext ts₂ then do
        let p ← takeReplacement d ts₂
        pure (⟨(), p.rest, p.behind⟩ : Parsed ts₂ Unit)
      else takeExternalId ts₂
    let ⟨_, ts₄, h₄⟩ ← takeClose ts₃
    return ⟨d, ts₄, h₄.trans (h₃.trans (h₂.trans h₁))⟩
  else
    let ⟨name, ts₁, h₁⟩ ← take PrologToken.plainName? ts
    if literalIsNext ts₁ then
      let ⟨text, ts₂, h₂⟩ ← takeReplacement d ts₁
      let ⟨_, ts₃, h₃⟩ ← takeClose ts₂
      return ⟨d.declareEntity name (.internal text), ts₃, h₃.trans (h₂.trans h₁)⟩
    else
      let ⟨_, ts₂, h₂⟩ ← takeExternalId ts₁
      if isNext (.name .plain "NDATA".toList) ts₂ then
        let ⟨_, ts₃, h₃⟩ ← take PrologToken.plainName? ts₂
        let ⟨_, ts₄, h₄⟩ ← take PrologToken.plainName? ts₃
        let ⟨_, ts₅, h₅⟩ ← takeClose ts₄
        return ⟨d.declareEntity name .binary, ts₅, h₅.trans (h₄.trans (h₃.trans (h₂.trans h₁)))⟩
      else
        let ⟨_, ts₃, h₃⟩ ← takeClose ts₂
        return ⟨d.declareEntity name .external, ts₃, h₃.trans (h₂.trans h₁)⟩

/-- Takes the declaration of a notation behind its opening. A public identifier may stand
alone. -/
def takeNotationDeclaration (ts : List PrologToken) : Except Fault (Parsed ts Unit) := do
  let ⟨_, ts₁, h₁⟩ ← take PrologToken.plainName? ts
  let ⟨kind, ts₂, h₂⟩ ← take PrologToken.externalKind? ts₁
  match kind with
  | .systemId =>
    let ⟨_, ts₃, h₃⟩ ← take PrologToken.literal? ts₂
    let ⟨_, ts₄, h₄⟩ ← takeClose ts₃
    return ⟨(), ts₄, h₄.trans (h₃.trans (h₂.trans h₁))⟩
  | .publicId =>
    let ⟨_, ts₃, h₃⟩ ← takePublicId ts₂
    if literalIsNext ts₃ then
      let ⟨_, ts₄, h₄⟩ ← take PrologToken.literal? ts₃
      let ⟨_, ts₅, h₅⟩ ← takeClose ts₄
      return ⟨(), ts₅, h₅.trans (h₄.trans (h₃.trans (h₂.trans h₁)))⟩
    else
      let ⟨_, ts₄, h₄⟩ ← takeClose ts₃
      return ⟨(), ts₄, h₄.trans (h₃.trans (h₂.trans h₁))⟩

/-! ## Attributes -/

/-- Takes alternatives of a kind up to the closing parenthesis, bars between them. -/
def takeAlternatives (p : PrologToken → Option (List Char)) :
    (ts : List PrologToken) → Except Fault (Parsed ts Unit)
  | [] => .error ⟨.noElement, []⟩
  | [t] =>
    match p t with
    | none => .error t.unexpected
    | some _ => .error ⟨.noElement, []⟩
  | t :: u :: ts =>
    match p t with
    | none => .error t.unexpected
    | some _ =>
      if u.lexeme = .closeParen none then .ok ⟨(), ts, .further t (.here u)⟩
      else if u.lexeme = .bar then do
        let ⟨_, ts', h⟩ ← takeAlternatives p ts
        return ⟨(), ts', .further t (.further u h)⟩
      else .error u.unexpected

/-- The word for a type of attributes, as whether its values are sequences of tokens. -/
def typeOfWord? (word : List Char) : Option Bool :=
  if word = "CDATA".toList then some false
  else if ["ID", "IDREF", "IDREFS", "ENTITY", "ENTITIES", "NMTOKEN", "NMTOKENS"].any
      (·.toList == word) then some true
  else none

/-- Takes the type of an attribute, as whether its values are sequences of tokens. -/
def takeType (ts : List PrologToken) : Except Fault (Parsed ts Bool) := do
  if isNext .openParen ts then
    let ⟨_, ts₁, h₁⟩ ← take (PrologToken.is .openParen) ts
    let ⟨_, ts₂, h₂⟩ ← takeAlternatives PrologToken.anyName? ts₁
    return ⟨true, ts₂, h₂.trans h₁⟩
  else if isNext (.name .plain "NOTATION".toList) ts then
    let ⟨_, ts₁, h₁⟩ ← take PrologToken.plainName? ts
    let ⟨_, ts₂, h₂⟩ ← take (PrologToken.is .openParen) ts₁
    let ⟨_, ts₃, h₃⟩ ← takeAlternatives PrologToken.plainName? ts₂
    return ⟨true, ts₃, h₃.trans (h₂.trans h₁)⟩
  else take (fun t => t.plainName?.bind typeOfWord?) ts

/-- A word behind a number sign that says that an attribute has no declared value. -/
def PrologToken.noDefault? (t : PrologToken) : Option Unit :=
  if t.lexeme = .hashName "IMPLIED".toList ∨ t.lexeme = .hashName "REQUIRED".toList then some ()
  else none

/-- Takes what is declared on the value of an attribute. -/
def takeValueRule (d : Dtd) (isTokenized : Bool) (ts : List PrologToken) :
    Except Fault (Parsed ts (Option (List Char))) := do
  if literalIsNext ts then takeDefault d isTokenized ts
  else if isNext (.hashName "FIXED".toList) ts then
    let ⟨_, ts₁, h₁⟩ ← take (PrologToken.is (.hashName "FIXED".toList)) ts
    let ⟨v, ts₂, h₂⟩ ← takeDefault d isTokenized ts₁
    return ⟨v, ts₂, h₂.trans h₁⟩
  else
    let ⟨_, ts₁, h₁⟩ ← take PrologToken.noDefault? ts
    return ⟨none, ts₁, h₁⟩

/-- Takes the declaration of one attribute of an element. -/
def takeAttribute (d : Dtd) (element : List Char) (ts : List PrologToken) :
    Except Fault (Parsed ts Dtd) := do
  let ⟨name, ts₁, h₁⟩ ← take PrologToken.qName? ts
  let ⟨isTokenized, ts₂, h₂⟩ ← takeType ts₁
  let ⟨default, ts₃, h₃⟩ ← takeValueRule d isTokenized ts₂
  return ⟨d.declareAttribute ⟨element, name, isTokenized, default⟩, ts₃, h₃.trans (h₂.trans h₁)⟩

/-- Takes the declarations of attributes of an element up to the end of the list. -/
def takeAttributes (d : Dtd) (element : List Char) (ts : List PrologToken) :
    Except Fault (Parsed ts Dtd) := do
  if isNext .closeDeclaration ts then
    let ⟨_, ts₁, h₁⟩ ← takeClose ts
    return ⟨d, ts₁, h₁⟩
  else
    let ⟨d, ts₁, h₁⟩ ← takeAttribute d element ts
    have := h₁.length_lt
    let ⟨d, ts₂, h₂⟩ ← takeAttributes d element ts₁
    return ⟨d, ts₂, h₂.trans h₁⟩
termination_by ts.length

/-- Takes the declaration of attributes behind its opening. -/
def takeAttributeList (d : Dtd) (ts : List PrologToken) : Except Fault (Parsed ts Dtd) := do
  let ⟨element, ts₁, h₁⟩ ← take PrologToken.qName? ts
  let ⟨d, ts₂, h₂⟩ ← takeAttributes d element ts₁
  return ⟨d, ts₂, h₂.trans h₁⟩

/-! ## Elements -/

/-- Takes the names that may stand among text, up to the closing parenthesis. Only without names
may the star behind it be left out. -/
def takeMixed (isFirst : Bool) : (ts : List PrologToken) → Except Fault (Parsed ts Unit)
  | [] => .error ⟨.noElement, []⟩
  | t :: ts =>
    if t.lexeme = .closeParen (some '*') ∨ (isFirst ∧ t.lexeme = .closeParen none) then
      .ok ⟨(), ts, .here t⟩
    else if t.lexeme = .bar then
      match ts with
      | [] => .error ⟨.noElement, []⟩
      | u :: ts =>
        match u.qName? with
        | none => .error u.unexpected
        | some _ => do
          let ⟨_, ts', h⟩ ← takeMixed false ts
          return ⟨(), ts', .further t (.further u h)⟩
    else .error t.unexpected

/-- Where the reading of a group of elements stands. -/
inductive GroupState where
  /-- An element or a group has to come. -/
  | item
  /-- A separator or the end of the group has to come. -/
  | separator
  deriving DecidableEq

/-- Whether the lexeme is an element in a group. -/
def PrologToken.isItem (t : PrologToken) : Bool := t.qName?.isSome || t.lexeme == .markedName

/-- Takes a group of elements up to the closing parenthesis. Each open group, the innermost first,
has the separator that it uses, which cannot change. -/
def takeGroup (state : GroupState) (groups : List (Option Lexeme)) :
    (ts : List PrologToken) → Except Fault (Parsed ts Unit)
  | [] => .error ⟨.noElement, []⟩
  | t :: ts =>
    match state, t.lexeme, groups with
    | .item, .openParen, _ => do
      let ⟨_, ts', h⟩ ← takeGroup .item (none :: groups) ts
      return ⟨(), ts', .further t h⟩
    | .item, _, _ =>
      if t.isItem then do
        let ⟨_, ts', h⟩ ← takeGroup .separator groups ts
        return ⟨(), ts', .further t h⟩
      else .error t.unexpected
    | .separator, .closeParen _, _ :: outer =>
      if outer = [] then .ok ⟨(), ts, .here t⟩
      else do
        let ⟨_, ts', h⟩ ← takeGroup .separator outer ts
        return ⟨(), ts', .further t h⟩
    | .separator, l, used :: outer =>
      if (l = .comma ∨ l = .bar) ∧ used.all (· == l) then do
        let ⟨_, ts', h⟩ ← takeGroup .item (some l :: outer) ts
        return ⟨(), ts', .further t h⟩
      else .error t.unexpected
    | .separator, _, [] => .error t.unexpected

/-- A word for all the content that an element may have. -/
def PrologToken.contentWord? (t : PrologToken) : Option Unit :=
  if t.lexeme = .name .plain "EMPTY".toList ∨ t.lexeme = .name .plain "ANY".toList then some ()
  else none

/-- Takes the declaration of an element behind its opening. -/
def takeElementDeclaration (ts : List PrologToken) : Except Fault (Parsed ts Unit) := do
  let ⟨_, ts₁, h₁⟩ ← take PrologToken.qName? ts
  if isNext .openParen ts₁ then
    let ⟨_, ts₂, h₂⟩ ← take (PrologToken.is .openParen) ts₁
    let pcdata := Lexeme.hashName "PCDATA".toList
    let ⟨_, ts₃, h₃⟩ ←
      if isNext pcdata ts₂ then do
        let ⟨_, ts', h'⟩ ← take (PrologToken.is pcdata) ts₂
        let ⟨_, ts'', h''⟩ ← takeMixed true ts'
        pure (⟨(), ts'', h''.trans h'⟩ : Parsed ts₂ Unit)
      else takeGroup .item [none] ts₂
    let ⟨_, ts₄, h₄⟩ ← takeClose ts₃
    return ⟨(), ts₄, h₄.trans (h₃.trans (h₂.trans h₁))⟩
  else
    let ⟨_, ts₂, h₂⟩ ← take PrologToken.contentWord? ts₁
    let ⟨_, ts₃, h₃⟩ ← takeClose ts₂
    return ⟨(), ts₃, h₃.trans (h₂.trans h₁)⟩

/-! ## The whole declaration -/

/-- Takes a declaration of the given kind behind its opening, if it is such a kind. -/
def takeMarkupDeclaration? (d : Dtd) (kind : List Char) (ts : List PrologToken) :
    Option (Except Fault (Parsed ts Dtd)) :=
  let unchanged : Parsed ts Unit → Parsed ts Dtd := fun p => ⟨d, p.rest, p.behind⟩
  if kind = "ENTITY".toList then some (takeEntityDeclaration d ts)
  else if kind = "ATTLIST".toList then some (takeAttributeList d ts)
  else if kind = "ELEMENT".toList then some ((takeElementDeclaration ts).map unchanged)
  else if kind = "NOTATION".toList then some ((takeNotationDeclaration ts).map unchanged)
  else none

/-- Takes the declarations inside the brackets, up to the closing one. Behind a reference to a
parameter entity they only count in a document that stands alone. -/
def takeSubset (d : Dtd) (ts : List PrologToken) : Except Fault (Parsed ts Dtd) :=
  match ts with
  | [] => .error ⟨.noElement, []⟩
  | t :: ts =>
    match t.lexeme with
    | .closeBracket => .ok ⟨d, ts, .here t⟩
    | .aside => do
      let ⟨d, ts', h⟩ ← takeSubset d ts
      return ⟨d, ts', .further t h⟩
    | .parameterReference => do
      let ⟨d, ts', h⟩ ← takeSubset { d with hasUnread := true, isCounting := d.isStandalone } ts
      return ⟨d, ts', .further t h⟩
    | .openDeclaration kind =>
      match takeMarkupDeclaration? d kind ts with
      | none => .error t.unexpected
      | some declaration => do
        let ⟨d, ts', h⟩ ← declaration
        have := h.length_lt
        let ⟨d, ts'', h'⟩ ← takeSubset d ts'
        return ⟨d, ts'', .further t (h'.trans h)⟩
    | _ => .error t.unexpected
termination_by ts.length

/-- Takes the declarations inside the brackets, if there are any, and the end of the document type
declaration. -/
def takeDoctypeEnd (d : Dtd) (ts : List PrologToken) : Except Fault (Parsed ts Dtd) := do
  if isNext .openBracket ts then
    let ⟨_, ts₁, h₁⟩ ← take (PrologToken.is .openBracket) ts
    let ⟨d, ts₂, h₂⟩ ← takeSubset d ts₁
    let ⟨_, ts₃, h₃⟩ ← takeClose ts₂
    return ⟨d, ts₃, h₃.trans (h₂.trans h₁)⟩
  else
    let ⟨_, ts₁, h₁⟩ ← takeClose ts
    return ⟨d, ts₁, h₁⟩

/-- Takes a document type declaration behind its opening. One that refers to declarations elsewhere
leaves them unread. -/
def takeDoctype (d : Dtd) (ts : List PrologToken) : Except Fault (Parsed ts Dtd) := do
  let ⟨_, ts₁, h₁⟩ ← take PrologToken.qName? ts
  if isNext .openBracket ts₁ || isNext .closeDeclaration ts₁ then
    let ⟨d, ts₂, h₂⟩ ← takeDoctypeEnd d ts₁
    return ⟨d, ts₂, h₂.trans h₁⟩
  else
    let ⟨_, ts₂, h₂⟩ ← takeExternalId ts₁
    let ⟨d, ts₃, h₃⟩ ← takeDoctypeEnd { d with hasUnread := true } ts₂
    return ⟨d, ts₃, h₃.trans (h₂.trans h₁)⟩

end Netconf.Xml
