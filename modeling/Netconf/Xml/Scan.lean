import Netconf.Outcome
import Netconf.Xml.Fault
import Netconf.Xml.NameChar

/-!
# Scanning

The smallest steps of reading XML: each takes something from the start of a text and hands on the
rest, or stops. A scan that runs out of text is told apart from one that meets a character it
cannot use, because the first is reported where its token began and the second where it stands.
-/

namespace Netconf.Xml

open Netconf.Outcome

/-- White space between the parts of markup. -/
def isSpace (c : Char) : Bool := c == ' ' || c == '\t' || c == '\n' || c == '\r'

/-- Whether a document may hold the character at all. -/
def isXmlChar (c : Char) : Bool :=
  isSpace c || (0x20 ≤ c.toNat && c.toNat != 0xFFFE && c.toNat != 0xFFFF)

/-- Why a scan stopped. -/
inductive Stop where
  /-- The character at the start of the rest does not fit. -/
  | invalid (rest : List Char)
  /-- The text ended inside a token. -/
  | ended
  /-- The text ended inside a character data section, with this unread. -/
  | openCdata (rest : List Char)
  deriving DecidableEq

/-- The fault that a stop amounts to in a token that began at the given place. -/
def Stop.fault (start : List Char) : Stop → Fault
  | .invalid rest => ⟨.invalidToken, rest⟩
  | .ended => ⟨.unclosedToken, start⟩
  | .openCdata rest => ⟨.unclosedCdata, rest⟩

/-- What has to follow is missing: the text ended or something else stands there. -/
def missing (s : List Char) : Stop := if s = [] then .ended else .invalid s

/-- The text without the white space at its start. -/
def skipSpace (s : List Char) : List Char := s.dropWhile isSpace

theorem length_skipSpace_le (s : List Char) : (skipSpace s).length ≤ s.length :=
  (List.dropWhile_suffix isSpace).length_le

/-- A given character. -/
def scanChar (c : Char) : List Char → Except Stop (Unit × List Char)
  | d :: s => if d = c then .ok ((), s) else .error (.invalid (d :: s))
  | [] => .error .ended

theorem length_of_scanChar {c : Char} {s rest : List Char} {u : Unit}
    (h : scanChar c s = .ok (u, rest)) : rest.length < s.length := by
  unfold scanChar at h
  split at h
  · split at h
    · simp_all
    · simp at h
  · simp at h

variable [Encoding]

/-- A name without a colon. -/
def scanName : List Char → Except Stop (List Char × List Char)
  | [] => .error .ended
  | c :: s =>
    if isNameStart c then .ok (c :: s.takeWhile isNameChar, s.dropWhile isNameChar)
    else .error (.invalid (c :: s))

theorem length_of_scanName {s name rest : List Char} (h : scanName s = .ok (name, rest)) :
    rest.length < s.length := by
  unfold scanName at h
  split at h
  · simp at h
  · rename_i c s
    split at h
    · simp only [Except.ok.injEq, Prod.mk.injEq] at h
      have := (List.dropWhile_suffix (l := s) isNameChar).length_le
      rw [← h.2, List.length_cons]
      omega
    · simp at h

/-- A name that may hold one colon between a qualifier and a local name. -/
def scanQName (s : List Char) : Except Stop (List Char × List Char) := do
  let (name, rest) ← scanName s
  match rest with
  | ':' :: rest =>
    let (base, rest) ← scanName rest
    return (name ++ ':' :: base, rest)
  | _ => return (name, rest)

theorem length_of_scanQName {s name rest : List Char} (h : scanQName s = .ok (name, rest)) :
    rest.length < s.length := by
  obtain ⟨⟨n, r⟩, h₁, h⟩ := bind_eq_ok_iff.1 h
  have := length_of_scanName h₁
  dsimp only at h
  split at h
  · obtain ⟨⟨b, r'⟩, h₂, h⟩ := bind_eq_ok_iff.1 h
    have := length_of_scanName h₂
    simp only [pure, Except.pure, Except.ok.injEq, Prod.mk.injEq] at h
    grind
  · simp only [pure, Except.pure, Except.ok.injEq, Prod.mk.injEq] at h
    grind

end Netconf.Xml
