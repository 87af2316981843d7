import Netconf.Outcome
import Netconf.Text.Numeral

/-!
# UTF-8

`encode` writes a text as octets and `decode` reads octets back, refusing overlong forms,
surrogates and numbers beyond the last code point. A refusal says where the first ill-formed
sequence stands, how long it is and what is wrong with it; `decodeLossy` puts one replacement
character in the place of each such sequence instead.
-/

namespace Netconf.Utf8

open Netconf.Outcome Netconf.Text

/-- The octets of one character, one to four. -/
def encodeChar (c : Char) : List UInt8 :=
  let n := c.toNat
  if n < 0x80 then [.ofNat n]
  else if n < 0x800 then [.ofNat (0xC0 + n / 0x40), .ofNat (0x80 + n % 0x40)]
  else if n < 0x10000 then
    [.ofNat (0xE0 + n / 0x1000), .ofNat (0x80 + n / 0x40 % 0x40), .ofNat (0x80 + n % 0x40)]
  else
    [.ofNat (0xF0 + n / 0x40000), .ofNat (0x80 + n / 0x1000 % 0x40),
     .ofNat (0x80 + n / 0x40 % 0x40), .ofNat (0x80 + n % 0x40)]

/-- The octets of a text. -/
def encode (s : List Char) : List UInt8 := s.flatMap encodeChar

@[simp] theorem encode_nil : encode [] = [] := rfl

@[simp] theorem encode_cons (c : Char) (s : List Char) :
    encode (c :: s) = encodeChar c ++ encode s := by simp [encode]

@[simp] theorem encode_append (s t : List Char) : encode (s ++ t) = encode s ++ encode t := by
  simp [encode]

/-- What is wrong with an ill-formed sequence. -/
inductive Flaw where
  /-- No sequence begins with this octet. -/
  | start
  /-- The octet after the sequence does not continue it. -/
  | continuation
  /-- The octets end before the sequence does. -/
  | truncated
  deriving DecidableEq

/-- An ill-formed sequence: the longest run of octets that begins some well-formed sequence, or
the one octet that begins none. -/
structure Malformed where
  /-- How many octets stand before it. -/
  offset : Nat
  /-- Its first octet. -/
  first : UInt8
  /-- How many octets it has. -/
  width : Nat
  flaw : Flaw
  deriving DecidableEq

/-- An octet between the bounds that continues a sequence of `read` octets, as six bits. -/
def continuation (read low high : Nat) : List UInt8 → Except (Flaw × Nat) (Nat × List UInt8)
  | [] => .error (.truncated, read)
  | b :: rest =>
    if low ≤ b.toNat && b.toNat ≤ high then .ok (b.toNat - 0x80, rest)
    else .error (.continuation, read)

/-- The sequence that starts with the octet `b`: its character and the octets after it, or what
is wrong and how many octets the ill-formed sequence has. The bounds on the second octet keep out
overlong forms, surrogates and numbers beyond the last code point. -/
def decodeChar (b : UInt8) (rest : List UInt8) : Except (Flaw × Nat) (Char × List UInt8) :=
  let n := b.toNat
  if n < 0x80 then .ok (.ofNat n, rest)
  else if n < 0xC2 then .error (.start, 1)
  else if n < 0xE0 then do
    let (x, rest) ← continuation 1 0x80 0xBF rest
    return (.ofNat ((n - 0xC0) * 0x40 + x), rest)
  else if n < 0xF0 then do
    let (x, rest) ← continuation 1 (if n = 0xE0 then 0xA0 else 0x80)
      (if n = 0xED then 0x9F else 0xBF) rest
    let (y, rest) ← continuation 2 0x80 0xBF rest
    return (.ofNat ((n - 0xE0) * 0x1000 + x * 0x40 + y), rest)
  else if n < 0xF5 then do
    let (x, rest) ← continuation 1 (if n = 0xF0 then 0x90 else 0x80)
      (if n = 0xF4 then 0x8F else 0xBF) rest
    let (y, rest) ← continuation 2 0x80 0xBF rest
    let (z, rest) ← continuation 3 0x80 0xBF rest
    return (.ofNat ((n - 0xF0) * 0x40000 + x * 0x1000 + y * 0x40 + z), rest)
  else .error (.start, 1)

theorem length_of_continuation {read low high x : Nat} {bs rest : List UInt8}
    (h : continuation read low high bs = .ok (x, rest)) : rest.length < bs.length := by
  unfold continuation at h
  split at h
  · simp at h
  · split at h
    · simp only [Except.ok.injEq, Prod.mk.injEq] at h
      simp [← h.2]
    · simp at h

/-- What is left after a character is no longer than what followed its first octet. -/
theorem length_of_decodeChar {b : UInt8} {bs rest : List UInt8} {c : Char}
    (h : decodeChar b bs = .ok (c, rest)) : rest.length ≤ bs.length := by
  simp only [decodeChar] at h
  split at h
  · simp_all
  split at h
  · simp at h
  split at h
  · obtain ⟨⟨x, r⟩, h₁, h⟩ := bind_eq_ok_iff.1 h
    have := length_of_continuation h₁
    simp only [pure, Except.pure, Except.ok.injEq, Prod.mk.injEq] at h
    grind
  split at h
  · obtain ⟨⟨x, r⟩, h₁, h⟩ := bind_eq_ok_iff.1 h
    obtain ⟨⟨y, r'⟩, h₂, h⟩ := bind_eq_ok_iff.1 h
    have := length_of_continuation h₁
    have := length_of_continuation h₂
    simp only [pure, Except.pure, Except.ok.injEq, Prod.mk.injEq] at h
    grind
  split at h
  · obtain ⟨⟨x, r⟩, h₁, h⟩ := bind_eq_ok_iff.1 h
    obtain ⟨⟨y, r'⟩, h₂, h⟩ := bind_eq_ok_iff.1 h
    obtain ⟨⟨z, r''⟩, h₃, h⟩ := bind_eq_ok_iff.1 h
    have := length_of_continuation h₁
    have := length_of_continuation h₂
    have := length_of_continuation h₃
    simp only [pure, Except.pure, Except.ok.injEq, Prod.mk.injEq] at h
    grind
  · simp at h

/-- The text that the octets stand for, or the first ill-formed sequence; `offset` octets have
been read before. -/
def decodeFrom (offset : Nat) : List UInt8 → Except Malformed (List Char)
  | [] => .ok []
  | b :: bs =>
    match h : decodeChar b bs with
    | .error (flaw, width) => .error ⟨offset, b, width, flaw⟩
    | .ok (c, rest) =>
      have := length_of_decodeChar h
      (decodeFrom (offset + (encodeChar c).length) rest).map (c :: ·)
termination_by bs => bs.length

/-- The text that the octets stand for, or the first ill-formed sequence. -/
def decode (bs : List UInt8) : Except Malformed (List Char) := decodeFrom 0 bs

/-- What stands in the place of an ill-formed sequence. -/
def replacement : Char := Char.ofNat 0xFFFD

/-- The text that the octets stand for, with one replacement character for each ill-formed
sequence. -/
def decodeLossy : List UInt8 → List Char
  | [] => []
  | b :: bs =>
    match h : decodeChar b bs with
    | .error (_, width) => replacement :: decodeLossy (bs.drop (width - 1))
    | .ok (c, rest) =>
      have := length_of_decodeChar h
      c :: decodeLossy rest
termination_by bs => bs.length
decreasing_by all_goals simp only [List.length_cons, List.length_drop]; omega

/-- How a flaw is called. -/
def Flaw.message : Flaw → List Char
  | .start => "invalid start byte".toList
  | .continuation => "invalid continuation byte".toList
  | .truncated => "unexpected end of data".toList

/-- The report of an ill-formed sequence: a single octet is shown, a longer sequence is given by
the offsets of its first and last octet. -/
def Malformed.message (m : Malformed) : List Char :=
  "'utf-8' codec can't decode ".toList ++
    (if m.width = 1 then
      "byte 0x".toList ++ hexadecimal 2 m.first.toNat ++ " in position ".toList ++
        decimal m.offset
    else
      "bytes in position ".toList ++ decimal m.offset ++ '-' ::
        decimal (m.offset + m.width - 1)) ++
    ": ".toList ++ m.flaw.message

end Netconf.Utf8
