import Netconf.Text.Utf8
import Netconf.Xml.NameChar

/-!
# The encoding of a document

A document begins with an ASCII character. If a zero octet stands on either side of it, the octets
of the text are in fact units of sixteen bits, and are put together accordingly; the place of the
zero says which octet of a unit comes first. Any other text is a document as it is.
-/

namespace Netconf.Xml

/-- The characters of a document. -/
structure DocumentText where
  characters : List Char
  /-- Whether they were read from units of sixteen bits. -/
  isWide : Bool
  /-- Whether an octet is left over behind them. -/
  hasStray : Bool
  deriving DecidableEq

/-- How the text is encoded. -/
@[reducible] def DocumentText.encoding (t : DocumentText) : Encoding := ⟨t.isWide⟩

/-- Units of sixteen bits from pairs of octets, the high one first. -/
def unitsHighFirst : List UInt8 → List Nat
  | a :: b :: bs => (a.toNat * 0x100 + b.toNat) :: unitsHighFirst bs
  | _ => []

/-- Units of sixteen bits from pairs of octets, the low one first. -/
def unitsLowFirst : List UInt8 → List Nat
  | a :: b :: bs => (b.toNat * 0x100 + a.toNat) :: unitsLowFirst bs
  | _ => []

/-- What a unit that is no character is read as: a character that no document may hold. -/
def noCharacter : Char := Char.ofNat 0xFFFF

/-- Characters from units. A high surrogate and the unit behind it are one character. -/
def charactersOfUnits : List Nat → List Char
  | [] => []
  | [u] => [if 0xD800 ≤ u ∧ u < 0xE000 then noCharacter else .ofNat u]
  | u :: v :: us =>
    if 0xD800 ≤ u ∧ u < 0xDC00 then
      .ofNat (0x10000 + u % 0x400 * 0x400 + v % 0x400) :: charactersOfUnits us
    else if 0xDC00 ≤ u ∧ u < 0xE000 then noCharacter :: charactersOfUnits (v :: us)
    else .ofNat u :: charactersOfUnits (v :: us)

/-- The characters that a text stands for as a document. -/
def DocumentText.ofText (s : List Char) : DocumentText :=
  let zero : Char := .ofNat 0
  if s.head? = some zero then
    let bs := Utf8.encode s
    ⟨charactersOfUnits (unitsHighFirst bs), true, bs.length % 2 == 1⟩
  else if s.tail.head? = some zero ∧ (Utf8.encode (s.take 1)).length = 1 then
    let bs := Utf8.encode s
    ⟨charactersOfUnits (unitsLowFirst bs), true, bs.length % 2 == 1⟩
  else ⟨s, false, false⟩

/-- A text without a zero among its first two characters is a document as it is. -/
theorem DocumentText.ofText_of_not_mem {s : List Char} (h : Char.ofNat 0 ∉ s.take 2) :
    ofText s = ⟨s, false, false⟩ := by
  cases s with
  | nil => rfl
  | cons c s =>
    cases s with
    | nil => simp_all [ofText, eq_comm]
    | cons d s => simp_all [ofText, eq_comm]

end Netconf.Xml
