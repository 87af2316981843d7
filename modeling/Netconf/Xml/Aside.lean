import Netconf.Text.Utf8
import Netconf.Xml.Scan

/-!
# Comments, instructions and character data sections

The constructs that need not nest: each runs from its opening characters to the first place where
its closing ones stand. Comments and processing instructions leave no trace in a document; an
instruction with the target `xml` is a declaration, which has its own rules of where it may stand.
-/

namespace Netconf.Xml

open Netconf.Outcome Netconf.Text

/-- The rest of a comment, of which `<!--` has been read: up to the next two hyphens, which the
closing bracket must follow. -/
def scanComment : List Char → Except Stop (List Char)
  | [] => .error .ended
  | c :: s =>
    if c = '-' ∧ s.head? = some '-' then
      (scanChar '>' s.tail).map (·.2)
    else if isXmlChar c then scanComment s
    else .error (.invalid (c :: s))

/-- The rest of an instruction behind its target, up to the closing characters. -/
def scanInstructionBody : List Char → Except Stop (List Char)
  | [] => .error .ended
  | c :: s =>
    if c = '?' ∧ s.head? = some '>' then .ok s.tail
    else if isXmlChar c then scanInstructionBody s
    else .error (.invalid (c :: s))

/-- An instruction, of which `<?` has been read, with whether it is a declaration. The target
`xml` is reserved in any other spelling. -/
def scanInstruction [Encoding] (s : List Char) : Except Stop (Bool × List Char) := do
  let (target, rest) ← scanName s
  let isDeclaration := target == "xml".toList
  if !isDeclaration && target.map Char.toLower == "xml".toList then
    .error (missing rest)
  else
    match rest with
    | '?' :: rest => (scanChar '>' rest).map fun (_, rest) => (isDeclaration, rest)
    | c :: rest =>
      if isSpace c then (scanInstructionBody rest).map (isDeclaration, ·)
      else .error (.invalid (c :: rest))
    | [] => .error .ended

/-- The characters of a character data section up to its end. -/
def scanCdataBody : List Char → Except Stop (List Char × List Char)
  | [] => .error (.openCdata [])
  | c :: s =>
    if c = ']' ∧ "]>".toList.isPrefixOf s then .ok ([], s.drop 2)
    else if c = ']' ∧ (s = [] ∨ s = [']']) then .error (.openCdata (c :: s))
    else if isXmlChar c then (scanCdataBody s).map fun (t, rest) => (c :: t, rest)
    else .error (.invalid (c :: s))

/-- Given characters in their order. -/
def scanLiteral : List Char → List Char → Except Stop (List Char)
  | [], s => .ok s
  | c :: cs, s => do
    let (_, rest) ← scanChar c s
    scanLiteral cs rest

/-- A character data section, of which `<![` has been read. Its keyword is only looked at when the
text is long enough, in octets, to hold it. -/
def scanCdata (s : List Char) : Except Stop (List Char × List Char) :=
  if (Utf8.encode (s.take 6)).length < 6 then .error .ended
  else do
    let rest ← scanLiteral "CDATA[".toList s
    scanCdataBody rest

theorem length_of_scanComment {s rest : List Char} (h : scanComment s = .ok rest) :
    rest.length < s.length := by
  induction s with
  | nil => simp [scanComment] at h
  | cons c s ih =>
    unfold scanComment at h
    split at h
    · obtain ⟨⟨_, r⟩, h₁, h⟩ := map_eq_ok_iff.1 h
      have := length_of_scanChar h₁
      have := List.length_tail (l := s)
      simp at h ⊢
      grind
    · split at h
      · have := ih h
        simp
        omega
      · simp at h

theorem length_of_scanInstructionBody {s rest : List Char}
    (h : scanInstructionBody s = .ok rest) : rest.length < s.length := by
  induction s with
  | nil => simp [scanInstructionBody] at h
  | cons c s ih =>
    unfold scanInstructionBody at h
    split at h
    · have := List.length_tail (l := s)
      simp at h ⊢
      grind
    · split at h
      · have := ih h
        simp
        omega
      · simp at h

theorem length_of_scanInstruction [Encoding] {s rest : List Char} {b : Bool}
    (h : scanInstruction s = .ok (b, rest)) : rest.length < s.length := by
  obtain ⟨⟨t, r⟩, h₁, h⟩ := bind_eq_ok_iff.1 h
  have := length_of_scanName h₁
  dsimp only at h
  split at h
  · simp at h
  · split at h
    · obtain ⟨⟨_, r'⟩, h₂, h⟩ := map_eq_ok_iff.1 h
      have := length_of_scanChar h₂
      simp at h
      grind
    · split at h
      · obtain ⟨r', h₂, h⟩ := map_eq_ok_iff.1 h
        have := length_of_scanInstructionBody h₂
        simp at h
        grind
      · simp at h
    · simp at h

theorem length_of_scanCdataBody {s t rest : List Char}
    (h : scanCdataBody s = .ok (t, rest)) : rest.length < s.length := by
  induction s generalizing t rest with
  | nil => simp [scanCdataBody] at h
  | cons c s ih =>
    unfold scanCdataBody at h
    split at h
    · have := List.length_drop (i := 2) (l := s)
      simp at h ⊢
      grind
    · split at h
      · simp at h
      · split at h
        · obtain ⟨⟨t', r⟩, h₁, h⟩ := map_eq_ok_iff.1 h
          have := ih h₁
          simp at h ⊢
          grind
        · simp at h

theorem length_of_scanLiteral {cs s rest : List Char} (h : scanLiteral cs s = .ok rest) :
    rest.length ≤ s.length := by
  induction cs generalizing s with
  | nil => simp_all [scanLiteral]
  | cons c cs ih =>
    obtain ⟨⟨_, r⟩, h₁, h⟩ := bind_eq_ok_iff.1 h
    have := length_of_scanChar h₁
    have := ih h
    omega

theorem length_of_scanCdata {s t rest : List Char} (h : scanCdata s = .ok (t, rest)) :
    rest.length < s.length := by
  unfold scanCdata at h
  split at h
  · simp at h
  · obtain ⟨r, h₁, h⟩ := bind_eq_ok_iff.1 h
    have := length_of_scanLiteral h₁
    have := length_of_scanCdataBody h
    omega

end Netconf.Xml
