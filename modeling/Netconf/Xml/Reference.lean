import Netconf.Xml.Scan

/-!
# References

A reference stands for a character, given by its number, or for an entity, given by its name. Five
entities are there without a declaration: they stand for the characters of markup.
-/

namespace Netconf.Xml

open Netconf.Outcome Netconf.Text

/-- A reference. -/
inductive Reference where
  /-- The character with a number, which need not be one that a document may hold. -/
  | character (number : Nat)
  /-- The entity with a name. -/
  | entity (name : List Char)
  deriving DecidableEq

namespace Reference

/-- A digit of hexadecimal numerals. -/
def isHexDigit (c : Char) : Bool := c.isDigit || ('a' ≤ c && c ≤ 'f') || ('A' ≤ c && c ≤ 'F')

/-- The number of a character in the base, up to the semicolon. -/
def scanNumber (base : Nat) (isDigit : Char → Bool) (s : List Char) :
    Except Stop (Reference × List Char) :=
  let digits := s.takeWhile isDigit
  match digits, s.dropWhile isDigit with
  | _ :: _, ';' :: rest => .ok (.character (numeralValue base digits), rest)
  | _, rest => .error (missing rest)

/-- A reference, of which the ampersand has been read. -/
def scan [Encoding] : List Char → Except Stop (Reference × List Char)
  | '#' :: 'x' :: s => scanNumber 16 isHexDigit s
  | '#' :: s => scanNumber 10 Char.isDigit s
  | s => do
    let (name, rest) ← scanName s
    let (_, rest) ← scanChar ';' rest
    return (.entity name, rest)

theorem length_of_scanNumber {base : Nat} {p : Char → Bool} {s rest : List Char} {r : Reference}
    (h : scanNumber base p s = .ok (r, rest)) : rest.length < s.length := by
  unfold scanNumber at h
  dsimp only at h
  split at h
  · rename_i hd
    have := (List.dropWhile_suffix (l := s) p).length_le
    simp only [Except.ok.injEq, Prod.mk.injEq] at h
    grind
  · simp at h

theorem length_of_scan [Encoding] {s rest : List Char} {r : Reference}
    (h : scan s = .ok (r, rest)) : rest.length < s.length := by
  unfold scan at h
  split at h
  · have := length_of_scanNumber h
    simp
    omega
  · have := length_of_scanNumber h
    simp
    omega
  · obtain ⟨⟨n, r'⟩, h₁, h⟩ := bind_eq_ok_iff.1 h
    obtain ⟨⟨_, r''⟩, h₂, h⟩ := bind_eq_ok_iff.1 h
    have := length_of_scanName h₁
    have := length_of_scanChar h₂
    simp only [pure, Except.pure, Except.ok.injEq, Prod.mk.injEq] at h
    grind

end Reference

/-- The character with a number, if a document may hold one of that number. -/
def charOfNumber? (n : Nat) : Option Char :=
  if n.isValidChar ∧ isXmlChar (.ofNat n) then some (.ofNat n) else none

/-- The character that an entity stands for without a declaration. -/
def predefined? (name : List Char) : Option Char :=
  if name = "lt".toList then some '<'
  else if name = "gt".toList then some '>'
  else if name = "amp".toList then some '&'
  else if name = "quot".toList then some '\x22'
  else if name = "apos".toList then some '\x27'
  else none

end Netconf.Xml
