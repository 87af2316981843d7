import Netconf.Xml.Reference

/-!
# Start tags

A start tag as it is written: its name and its attributes in order, with the values still holding
references. The tag of an empty element is told from the others by the slash at its end.
-/

namespace Netconf.Xml

open Netconf.Outcome

/-- A part of an attribute value. -/
inductive ValuePart where
  | char (c : Char)
  /-- A reference and the place where it stands. -/
  | reference (r : Reference) (place : List Char)
  deriving DecidableEq

/-- An attribute as it is written, and the place where it stands. -/
structure RawAttribute where
  name : List Char
  value : List ValuePart
  place : List Char
  deriving DecidableEq

/-- A start tag as it is written. -/
structure RawTag where
  name : List Char
  attributes : List RawAttribute
  isEmpty : Bool
  deriving DecidableEq

/-- A quote, single or double. -/
def scanQuote : List Char → Except Stop (Char × List Char)
  | [] => .error .ended
  | c :: s => if c = '\x22' ∨ c = '\x27' then .ok (c, s) else .error (.invalid (c :: s))

theorem length_of_scanQuote {s rest : List Char} {c : Char}
    (h : scanQuote s = .ok (c, rest)) : rest.length < s.length := by
  unfold scanQuote at h
  split at h
  · simp at h
  · split at h
    · simp_all
    · simp at h

/-- The end of a start tag, with whether the tag is that of an empty element. -/
def scanTagEnd : List Char → Except Stop (Bool × List Char)
  | [] => .error .ended
  | '>' :: s => .ok (false, s)
  | '/' :: s => (scanChar '>' s).map fun (_, rest) => (true, rest)
  | s => .error (.invalid s)

theorem length_of_scanTagEnd {s rest : List Char} {e : Bool}
    (h : scanTagEnd s = .ok (e, rest)) : rest.length < s.length := by
  unfold scanTagEnd at h
  split at h
  · simp at h
  · simp_all
  · obtain ⟨⟨_, r⟩, h₁, h⟩ := map_eq_ok_iff.1 h
    have := length_of_scanChar h₁
    simp only [Prod.mk.injEq] at h
    grind
  · simp at h

variable [Encoding]

/-- One part of an attribute value. -/
def scanValuePart : List Char → Except Stop (ValuePart × List Char)
  | [] => .error .ended
  | '&' :: s => do
    let (r, rest) ← Reference.scan s
    return (.reference r ('&' :: s), rest)
  | c :: s => if c ≠ '<' ∧ isXmlChar c then .ok (.char c, s) else .error (.invalid (c :: s))

theorem length_of_scanValuePart {s rest : List Char} {p : ValuePart}
    (h : scanValuePart s = .ok (p, rest)) : rest.length < s.length := by
  unfold scanValuePart at h
  split at h
  · simp at h
  · obtain ⟨⟨r, r'⟩, h₁, h⟩ := bind_eq_ok_iff.1 h
    have := Reference.length_of_scan h₁
    simp only [pure, Except.pure, Except.ok.injEq, Prod.mk.injEq] at h
    grind
  · split at h
    · simp_all
    · simp at h

/-- The value of an attribute up to the closing quote, of which the opening one has been read. -/
def scanValue (quote : Char) (s : List Char) : Except Stop (List ValuePart × List Char) :=
  match s with
  | [] => .error .ended
  | c :: tail =>
    if c = quote then .ok ([], tail)
    else
      match h : scanValuePart (c :: tail) with
      | .error e => .error e
      | .ok (p, rest) =>
        have := length_of_scanValuePart h
        (scanValue quote rest).map fun (ps, rest) => (p :: ps, rest)
termination_by s.length
decreasing_by assumption

theorem length_of_scanValue {quote : Char} {s rest : List Char} {v : List ValuePart}
    (h : scanValue quote s = .ok (v, rest)) : rest.length < s.length := by
  fun_induction scanValue quote s generalizing v rest with
  | case1 => simp at h
  | case2 => simp_all
  | case3 => simp at h
  | case4 c tail _ p r hp hlt ih =>
    obtain ⟨⟨ps, r'⟩, h₁, h⟩ := map_eq_ok_iff.1 h
    have := ih h₁
    simp only [Prod.mk.injEq] at h
    grind

/-- An attribute. -/
def scanAttribute (s : List Char) : Except Stop (RawAttribute × List Char) := do
  let (name, rest) ← scanQName s
  let (_, rest) ← scanChar '=' (skipSpace rest)
  let (quote, rest) ← scanQuote (skipSpace rest)
  let (value, rest) ← scanValue quote rest
  return (⟨name, value, s⟩, rest)

theorem length_of_scanAttribute {s rest : List Char} {a : RawAttribute}
    (h : scanAttribute s = .ok (a, rest)) : rest.length < s.length := by
  obtain ⟨⟨n, r₁⟩, h₁, h⟩ := bind_eq_ok_iff.1 h
  obtain ⟨⟨_, r₂⟩, h₂, h⟩ := bind_eq_ok_iff.1 h
  obtain ⟨⟨q, r₃⟩, h₃, h⟩ := bind_eq_ok_iff.1 h
  obtain ⟨⟨v, r₄⟩, h₄, h⟩ := bind_eq_ok_iff.1 h
  have := length_of_scanQName h₁
  have := length_of_scanChar h₂
  have := length_of_scanQuote h₃
  have := length_of_scanValue h₄
  have := length_skipSpace_le r₁
  have := length_skipSpace_le r₂
  simp only [pure, Except.pure, Except.ok.injEq, Prod.mk.injEq] at h
  grind

/-- The attributes of a start tag up to its end. White space stands in front of each. -/
def scanAttributes (s : List Char) : Except Stop ((List RawAttribute × Bool) × List Char) :=
  match s with
  | [] => .error .ended
  | c :: tail =>
    let s' := skipSpace (c :: tail)
    if !isSpace c || s'.head?.all fun d => d == '>' || d == '/' then
      (scanTagEnd s').map fun (e, rest) => (([], e), rest)
    else
      match h : scanAttribute s' with
      | .error e => .error e
      | .ok (a, rest) =>
        have : rest.length < (c :: tail).length :=
          Nat.lt_of_lt_of_le (length_of_scanAttribute h) (length_skipSpace_le _)
        (scanAttributes rest).map fun ((as, e), rest) => ((a :: as, e), rest)
termination_by s.length
decreasing_by assumption

/-- A start tag, of which the opening bracket has been read. -/
def scanStartTag (s : List Char) : Except Stop (RawTag × List Char) := do
  let (name, rest) ← scanQName s
  let ((attributes, isEmpty), rest) ← scanAttributes rest
  return (⟨name, attributes, isEmpty⟩, rest)

theorem length_of_scanAttributes {s rest : List Char} {r : List RawAttribute × Bool}
    (h : scanAttributes s = .ok (r, rest)) : rest.length < s.length := by
  fun_induction scanAttributes s generalizing r rest with
  | case1 => simp at h
  | case2 c tail _ =>
    obtain ⟨⟨e, r'⟩, h₁, h⟩ := map_eq_ok_iff.1 h
    have := length_of_scanTagEnd h₁
    have := length_skipSpace_le (c :: tail)
    simp only [Prod.mk.injEq] at h
    grind
  | case3 => simp at h
  | case4 c tail =>
    rename_i ih
    obtain ⟨⟨as, r''⟩, h₁, h⟩ := map_eq_ok_iff.1 h
    have := ih h₁
    simp only [Prod.mk.injEq] at h
    grind

theorem length_of_scanStartTag {s rest : List Char} {t : RawTag}
    (h : scanStartTag s = .ok (t, rest)) : rest.length < s.length := by
  obtain ⟨⟨n, r₁⟩, h₁, h⟩ := bind_eq_ok_iff.1 h
  obtain ⟨⟨x, r₂⟩, h₂, h⟩ := bind_eq_ok_iff.1 h
  have := length_of_scanQName h₁
  have := length_of_scanAttributes h₂
  simp only [pure, Except.pure, Except.ok.injEq, Prod.mk.injEq] at h
  grind

end Netconf.Xml
