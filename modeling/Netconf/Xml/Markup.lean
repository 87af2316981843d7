import Netconf.Xml.Aside
import Netconf.Xml.StartTag

/-!
# Markup

The content of an element as a sequence of tokens: runs of text and the pieces of markup between
them. `lex` reads a whole text; where it cannot go on, the last token says why. What the tokens
mean together, such as which tags belong to each other, is left open here.
-/

namespace Netconf.Xml

open Netconf.Outcome

/-- A token of content. -/
inductive Markup where
  /-- Text without references, as it is written. -/
  | text (s : List Char)
  | reference (r : Reference)
  /-- The characters of a character data section. -/
  | cdata (s : List Char)
  | startTag (t : RawTag)
  | endTag (name : List Char)
  /-- A comment or an instruction. -/
  | aside
  /-- An XML declaration, which content must not hold. -/
  | declaration
  /-- No token: nothing can be read beyond this fault. -/
  | broken (f : Fault)
  deriving DecidableEq

/-- A token with the place where it stands and the text after it. -/
structure Token where
  markup : Markup
  place : List Char
  rest : List Char
  deriving DecidableEq

/-- Whether text ends before the rest: at markup, or at what text must not hold. -/
def endsText : List Char → Bool
  | [] => true
  | c :: s => c == '<' || c == '&' || !isXmlChar c || "]]>".toList.isPrefixOf (c :: s)

/-- The text at the start and what follows it. -/
def splitText : List Char → List Char × List Char
  | [] => ([], [])
  | c :: s =>
    if endsText (c :: s) then ([], c :: s)
    else
      let (t, rest) := splitText s
      (c :: t, rest)

/-- The text and what follows it are what was split. -/
theorem splitText_append (s : List Char) : (splitText s).1 ++ (splitText s).2 = s := by
  induction s with
  | nil => rfl
  | cons c s ih =>
    unfold splitText
    split
    · rfl
    · simpa using ih

/-- Markup that starts with an exclamation mark, of which `<!` has been read. -/
def scanBang : List Char → Except Stop (Markup × List Char)
  | '-' :: s => do
    let (_, rest) ← scanChar '-' s
    (scanComment rest).map (.aside, ·)
  | '[' :: s => (scanCdata s).map fun (t, rest) => (.cdata t, rest)
  | s => .error (missing s)

theorem length_of_scanBang {s rest : List Char} {m : Markup}
    (h : scanBang s = .ok (m, rest)) : rest.length < s.length := by
  unfold scanBang at h
  split at h
  · obtain ⟨⟨_, r₁⟩, h₁, h⟩ := bind_eq_ok_iff.1 h
    obtain ⟨r₂, h₂, h⟩ := map_eq_ok_iff.1 h
    have := length_of_scanChar h₁
    have := length_of_scanComment h₂
    simp at h
    grind
  · obtain ⟨⟨t, r⟩, h₁, h⟩ := map_eq_ok_iff.1 h
    have := length_of_scanCdata h₁
    simp at h
    grind
  · simp at h

variable [Encoding]

/-- An end tag, of which `</` has been read. Its name may hold any number of colons, since it has
to be that of the start tag anyway. -/
def scanEndTag (s : List Char) : Except Stop (List Char × List Char) := do
  let (name, rest) ← scanName s
  let p := fun c => isNameChar c || c == ':'
  let (_, rest') ← scanChar '>' (skipSpace (rest.dropWhile p))
  return (name ++ rest.takeWhile p, rest')

/-- Markup in angle brackets, of which the opening one has been read. -/
def scanBracket : List Char → Except Stop (Markup × List Char)
  | '!' :: s => scanBang s
  | '?' :: s =>
    (scanInstruction s).map fun (b, rest) => (if b then .declaration else .aside, rest)
  | '/' :: s => (scanEndTag s).map fun (name, rest) => (.endTag name, rest)
  | s => (scanStartTag s).map fun (t, rest) => (.startTag t, rest)

/-- The token at the start of a text. Where text would hold the end of a character data section,
the bracket at its end is what does not fit. -/
def scanMarkup : List Char → Except Stop (Markup × List Char)
  | '<' :: s => scanBracket s
  | '&' :: s => (Reference.scan s).map fun (r, rest) => (.reference r, rest)
  | s =>
    match splitText s with
    | ([], _) =>
      .error (if "]]>".toList.isPrefixOf s then .invalid (s.drop 2) else missing s)
    | (t, rest) => .ok (.text t, rest)

theorem length_of_scanEndTag {s name rest : List Char}
    (h : scanEndTag s = .ok (name, rest)) : rest.length < s.length := by
  obtain ⟨⟨n, r₁⟩, h₁, h⟩ := bind_eq_ok_iff.1 h
  obtain ⟨⟨_, r₂⟩, h₂, h⟩ := bind_eq_ok_iff.1 h
  have := length_of_scanName h₁
  have := length_of_scanChar h₂
  have := length_skipSpace_le (r₁.dropWhile fun c => isNameChar c || c == ':')
  have := (List.dropWhile_suffix (l := r₁) fun c => isNameChar c || c == ':').length_le
  simp only [pure, Except.pure, Except.ok.injEq, Prod.mk.injEq] at h
  grind

theorem length_of_scanBracket {s rest : List Char} {m : Markup}
    (h : scanBracket s = .ok (m, rest)) : rest.length < s.length := by
  unfold scanBracket at h
  split at h
  · have := length_of_scanBang h
    simp
    omega
  · obtain ⟨⟨t, r⟩, h₁, h⟩ := map_eq_ok_iff.1 h
    have := length_of_scanInstruction h₁
    simp at h
    grind
  · obtain ⟨⟨t, r⟩, h₁, h⟩ := map_eq_ok_iff.1 h
    have := length_of_scanEndTag h₁
    simp at h
    grind
  · obtain ⟨⟨t, r⟩, h₁, h⟩ := map_eq_ok_iff.1 h
    have := length_of_scanStartTag h₁
    simp at h
    grind

/-- A token takes at least one character. -/
theorem length_of_scanMarkup {s rest : List Char} {m : Markup}
    (h : scanMarkup s = .ok (m, rest)) : rest.length < s.length := by
  unfold scanMarkup at h
  split at h
  · have := length_of_scanBracket h
    simp
    omega
  · obtain ⟨⟨t, r⟩, h₁, h⟩ := map_eq_ok_iff.1 h
    have := Reference.length_of_scan h₁
    simp at h
    grind
  · split at h
    · simp at h
    · rename_i t r hne heq
      have h₁ := splitText_append s
      rw [heq] at h₁
      have : t ≠ [] := hne
      have := List.length_pos_iff.2 this
      have := congrArg List.length h₁
      simp at h this
      grind

/-- The tokens of a text. -/
def lex (s : List Char) : List Token :=
  match s with
  | [] => []
  | c :: tail =>
    match h : scanMarkup (c :: tail) with
    | .error e => [⟨.broken (e.fault (c :: tail)), c :: tail, []⟩]
    | .ok (m, rest) =>
      have := length_of_scanMarkup h
      ⟨m, c :: tail, rest⟩ :: lex rest
termination_by s.length
decreasing_by assumption

end Netconf.Xml
