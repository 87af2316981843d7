import Netconf.Xml.Aside

/-!
# Lexemes outside the root element

What stands before and behind the root element, and inside the document type declaration, as a
sequence of lexemes. `lexProlog` reads a text up to the root element; where it cannot go on, the
last lexeme says why.
-/

namespace Netconf.Xml

open Netconf.Outcome

/-- The kinds of names: without a colon, with one between a qualifier and a local name, and other
sequences of name characters. -/
inductive NameKind where
  | plain
  | qualified
  | other
  deriving DecidableEq

/-- A lexeme. -/
inductive Lexeme where
  | space
  /-- A comment or an instruction. -/
  | aside
  /-- An XML declaration. -/
  | declaration
  /-- A text in quotes, without them. -/
  | literal (s : List Char)
  /-- The beginning of a declaration of a kind. -/
  | openDeclaration (kind : List Char)
  | closeDeclaration
  | openConditional
  | closeConditional
  | openBracket
  | closeBracket
  | openParen
  /-- A closing parenthesis with the mark of repetition behind it. -/
  | closeParen (mark : Option Char)
  | comma
  | bar
  | percent
  /-- A reference to a parameter entity. -/
  | parameterReference
  /-- A name behind a number sign. -/
  | hashName (name : List Char)
  | name (kind : NameKind) (name : List Char)
  /-- A name with a mark of repetition behind it. -/
  | markedName
  /-- The root element begins. -/
  | root
  /-- No lexeme: nothing can be read beyond this fault. -/
  | broken (f : Fault)
  deriving DecidableEq

/-- A lexeme with the place where it stands and the text after it. -/
structure PrologToken where
  lexeme : Lexeme
  place : List Char
  rest : List Char
  deriving DecidableEq

/-- A text in quotes, of which the opening one has been read. -/
def scanQuoted (quote : Char) : List Char → Except Stop (List Char × List Char)
  | [] => .error .ended
  | c :: s =>
    if c = quote then .ok ([], s)
    else if isXmlChar c then (scanQuoted quote s).map fun (t, rest) => (c :: t, rest)
    else .error (.invalid (c :: s))

theorem length_of_scanQuoted {quote : Char} {s t rest : List Char}
    (h : scanQuoted quote s = .ok (t, rest)) : rest.length < s.length := by
  induction s generalizing t rest with
  | nil => simp [scanQuoted] at h
  | cons c s ih =>
    unfold scanQuoted at h
    split at h
    · simp_all
    · split at h
      · obtain ⟨⟨t', r⟩, h₁, h⟩ := map_eq_ok_iff.1 h
        have := ih h₁
        simp at h ⊢
        grind
      · simp at h

/-- Whether the text is used up or goes on with such a character. -/
def endsOrGoesOn (p : Char → Bool) (s : List Char) : Bool := s.head?.all p

/-- A text in quotes with something behind it that may stand there. -/
def scanQuotedLexeme (quote : Char) (s : List Char) : Except Stop (Lexeme × List Char) := do
  let (t, rest) ← scanQuoted quote s
  if endsOrGoesOn (fun c => isSpace c || c == '>' || c == '%' || c == '[') rest then
    return (.literal t, rest)
  else .error (.invalid rest)

theorem length_of_scanQuotedLexeme {quote : Char} {s rest : List Char} {l : Lexeme}
    (h : scanQuotedLexeme quote s = .ok (l, rest)) : rest.length ≤ s.length := by
  obtain ⟨⟨t, r⟩, h₁, h⟩ := bind_eq_ok_iff.1 h
  have := length_of_scanQuoted h₁
  dsimp only at h
  split at h
  · simp only [pure, Except.pure, Except.ok.injEq, Prod.mk.injEq] at h
    grind
  · simp at h

/-- The marks of repetition. -/
def isMark (c : Char) : Bool := c == '?' || c == '*' || c == '+'

/-- A closing parenthesis, which has been read, with the mark behind it. -/
def scanCloseParen : List Char → Except Stop (Lexeme × List Char)
  | [] => .ok (.closeParen none, [])
  | c :: s =>
    if isMark c then .ok (.closeParen (some c), s)
    else if isSpace c || c == '>' || c == ',' || c == '|' || c == ')' then
      .ok (.closeParen none, c :: s)
    else .error (.invalid (c :: s))

theorem length_of_scanCloseParen {s rest : List Char} {l : Lexeme}
    (h : scanCloseParen s = .ok (l, rest)) : rest.length ≤ s.length := by
  unfold scanCloseParen at h
  grind

/-- A closing bracket, which has been read, or the end of a conditional section. -/
def scanCloseBracket : List Char → Except Stop (Lexeme × List Char)
  | ']' :: [] => .error .ended
  | ']' :: '>' :: s => .ok (.closeConditional, s)
  | s => .ok (.closeBracket, s)

theorem length_of_scanCloseBracket {s rest : List Char} {l : Lexeme}
    (h : scanCloseBracket s = .ok (l, rest)) : rest.length ≤ s.length := by
  unfold scanCloseBracket at h
  grind

variable [Encoding]

/-- The letters that the kinds of declarations are written with. -/
def isKindChar (c : Char) : Bool := c.isAlpha || c == '_' || isLatinLetter c

/-- The beginning of a declaration, of which `<!` has been read. A percent sign directly behind it
has to begin a reference. -/
def scanOpenDeclaration (s : List Char) : Except Stop (Lexeme × List Char) :=
  let kind := s.takeWhile isKindChar
  let rest := s.dropWhile isKindChar
  match kind, rest with
  | [], _ => .error (missing rest)
  | _, '%' :: [] => .error .ended
  | _, '%' :: c :: _ =>
    if isSpace c || c == '%' then .error (.invalid rest) else .ok (.openDeclaration kind, rest)
  | _, c :: _ => if isSpace c then .ok (.openDeclaration kind, rest) else .error (.invalid rest)
  | _, [] => .error .ended

/-- Whether the root element begins where the character stands behind an angle bracket: where a name
may begin, or where a character is not looked up by its octet, whatever it is. -/
def beginsRoot (c : Char) : Bool := isKindChar c || tableSize ≤ c.toNat

/-- A lexeme that starts with an angle bracket, which has been read. -/
def scanAngle : List Char → Except Stop (Lexeme × List Char)
  | '!' :: '-' :: s => do
    let (_, rest) ← scanChar '-' s
    (scanComment rest).map (.aside, ·)
  | '!' :: '[' :: s => .ok (.openConditional, s)
  | '!' :: s => scanOpenDeclaration s
  | '?' :: s =>
    (scanInstruction s).map fun (b, rest) => (if b then .declaration else .aside, rest)
  | [] => .error .ended
  | c :: s => if beginsRoot c then .ok (.root, s) else .error (.invalid (c :: s))

/-- A percent sign, which has been read, alone or in front of the name of a parameter entity. -/
def scanPercent : List Char → Except Stop (Lexeme × List Char)
  | [] => .error .ended
  | c :: s =>
    if isSpace c || c == '%' then .ok (.percent, c :: s)
    else do
      let (_, rest) ← scanName (c :: s)
      let (_, rest) ← scanChar ';' rest
      return (.parameterReference, rest)

/-- A name behind a number sign, which has been read. -/
def scanHashName (s : List Char) : Except Stop (Lexeme × List Char) := do
  let (name, rest) ← scanName s
  if endsOrGoesOn (fun c => isSpace c || c == ')' || c == '>' || c == '%' || c == '|') rest then
    return (.hashName name, rest)
  else .error (.invalid rest)

/-- What may follow a name. -/
def endsName (c : Char) : Bool :=
  isSpace c || c == '>' || c == ')' || c == ',' || c == '|' || c == '[' || c == '%'

/-- The kind of a name with a colon at its end and the given text behind it. A colon with a name
character behind it makes a plain name a qualified one, any other colon makes it neither. -/
def NameKind.withColon (kind : NameKind) (behind : List Char) : NameKind :=
  if kind = .plain ∧ behind.head?.any isNameChar then .qualified else .other

/-- The rest of a name whose part `read` has been read, the last character first. -/
def scanNameLexeme (kind : NameKind) (read : List Char) :
    List Char → Except Stop (Lexeme × List Char)
  | [] => .ok (.name kind read.reverse, [])
  | c :: s =>
    if isNameChar c then scanNameLexeme kind (c :: read) s
    else if endsName c then .ok (.name kind read.reverse, c :: s)
    else if c = ':' then
      if kind = .plain ∧ s = [] then .error .ended
      else scanNameLexeme (kind.withColon s) (c :: read) s
    else if isMark c && kind != .other then .ok (.markedName, s)
    else .error (.invalid (c :: s))

/-- The lexemes of one character. -/
def punctuation? (c : Char) : Option Lexeme :=
  if c = ',' then some .comma
  else if c = '|' then some .bar
  else if c = '>' then some .closeDeclaration
  else if c = '[' then some .openBracket
  else if c = '(' then some .openParen
  else none

/-- A lexeme of which the first character `c` has been read. -/
def scanLexemeBehind (c : Char) (s : List Char) : Except Stop (Lexeme × List Char) :=
  if c = '<' then scanAngle s
  else if c = '\x22' ∨ c = '\x27' then scanQuotedLexeme c s
  else if c = '%' then scanPercent s
  else if c = '#' then scanHashName s
  else if c = ']' then scanCloseBracket s
  else if c = ')' then scanCloseParen s
  else if isNameStart c then scanNameLexeme .plain [c] s
  else if isNameChar c || c == ':' then scanNameLexeme .other [c] s
  else .error (.invalid (c :: s))

/-- The lexeme at the start of a text. -/
def scanLexeme : List Char → Except Stop (Lexeme × List Char)
  | [] => .error .ended
  | c :: s =>
    if isSpace c then .ok (.space, skipSpace s)
    else
      match punctuation? c with
      | some l => .ok (l, s)
      | none => scanLexemeBehind c s

theorem length_of_scanOpenDeclaration {s rest : List Char} {l : Lexeme}
    (h : scanOpenDeclaration s = .ok (l, rest)) : rest.length ≤ s.length := by
  have := (List.dropWhile_suffix (l := s) isKindChar).length_le
  unfold scanOpenDeclaration at h
  grind

theorem length_of_scanAngle {s rest : List Char} {l : Lexeme}
    (h : scanAngle s = .ok (l, rest)) : rest.length ≤ s.length := by
  unfold scanAngle at h
  split at h
  · obtain ⟨⟨_, r⟩, h₁, h⟩ := bind_eq_ok_iff.1 h
    obtain ⟨r', h₂, h⟩ := map_eq_ok_iff.1 h
    have := length_of_scanChar h₁
    have := length_of_scanComment h₂
    simp at h
    grind
  · simp_all
    omega
  · have := length_of_scanOpenDeclaration h
    simp
    omega
  · obtain ⟨⟨b, r⟩, h₁, h⟩ := map_eq_ok_iff.1 h
    have := length_of_scanInstruction h₁
    simp at h
    grind
  · simp at h
  · split at h
    · simp_all
    · simp at h

theorem length_of_scanPercent {s rest : List Char} {l : Lexeme}
    (h : scanPercent s = .ok (l, rest)) : rest.length ≤ s.length := by
  unfold scanPercent at h
  split at h
  · simp at h
  · split at h
    · simp_all
    · obtain ⟨⟨_, r⟩, h₁, h⟩ := bind_eq_ok_iff.1 h
      obtain ⟨⟨_, r'⟩, h₂, h⟩ := bind_eq_ok_iff.1 h
      have := length_of_scanName h₁
      have := length_of_scanChar h₂
      simp only [pure, Except.pure, Except.ok.injEq, Prod.mk.injEq] at h
      grind

theorem length_of_scanHashName {s rest : List Char} {l : Lexeme}
    (h : scanHashName s = .ok (l, rest)) : rest.length ≤ s.length := by
  obtain ⟨⟨t, r⟩, h₁, h⟩ := bind_eq_ok_iff.1 h
  have := length_of_scanName h₁
  dsimp only at h
  split at h
  · simp only [pure, Except.pure, Except.ok.injEq, Prod.mk.injEq] at h
    grind
  · simp at h

theorem length_of_scanNameLexeme {kind : NameKind} {read s rest : List Char} {l : Lexeme}
    (h : scanNameLexeme kind read s = .ok (l, rest)) : rest.length ≤ s.length := by
  induction s generalizing kind read with
  | nil =>
    simp only [scanNameLexeme, Except.ok.injEq, Prod.mk.injEq] at h
    simp [← h.2]
  | cons c s ih =>
    unfold scanNameLexeme at h
    split at h
    · exact Nat.le_succ_of_le (ih h)
    split at h
    · simp_all
    split at h
    · split at h
      · simp at h
      · exact Nat.le_succ_of_le (ih h)
    split at h
    · simp_all
    · simp at h

theorem length_of_scanLexemeBehind {c : Char} {s rest : List Char} {l : Lexeme}
    (h : scanLexemeBehind c s = .ok (l, rest)) : rest.length ≤ s.length := by
  unfold scanLexemeBehind at h
  split at h
  · exact length_of_scanAngle h
  split at h
  · exact length_of_scanQuotedLexeme h
  split at h
  · exact length_of_scanPercent h
  split at h
  · exact length_of_scanHashName h
  split at h
  · exact length_of_scanCloseBracket h
  split at h
  · exact length_of_scanCloseParen h
  split at h
  · exact length_of_scanNameLexeme h
  split at h
  · exact length_of_scanNameLexeme h
  · simp at h

/-- A lexeme takes at least one character. -/
theorem length_of_scanLexeme {s rest : List Char} {l : Lexeme}
    (h : scanLexeme s = .ok (l, rest)) : rest.length < s.length := by
  unfold scanLexeme at h
  split at h
  · simp at h
  · rename_i c s
    split at h
    · have := length_skipSpace_le s
      simp at h ⊢
      grind
    · split at h
      · simp_all
      · exact Nat.lt_succ_of_le (length_of_scanLexemeBehind h)

/-- The lexemes of a text, up to where the root element begins. -/
def lexProlog (s : List Char) : List PrologToken :=
  match s with
  | [] => []
  | c :: tail =>
    match h : scanLexeme (c :: tail) with
    | .error e => [⟨.broken (e.fault (c :: tail)), c :: tail, []⟩]
    | .ok (l, rest) =>
      have := length_of_scanLexeme h
      if l = .root then [⟨l, c :: tail, rest⟩] else ⟨l, c :: tail, rest⟩ :: lexProlog rest
termination_by s.length
decreasing_by assumption

end Netconf.Xml
