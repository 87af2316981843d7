/-!
# Numerals

Natural numbers written in decimal and hexadecimal, as texts.
-/

namespace Netconf.Text

/-- The decimal numeral of a number, without leading zeros. -/
def decimal (n : Nat) : List Char := Nat.toDigits 10 n

/-- The decimal numeral of an integer, with a minus sign in front of a negative one. -/
def signedDecimal : Int → List Char
  | .ofNat n => decimal n
  | .negSucc n => '-' :: decimal (n + 1)

/-- The lower case hexadecimal digit of a number below sixteen. -/
def hexDigit (n : Nat) : Char := if n < 10 then Char.ofNat (0x30 + n) else Char.ofNat (0x57 + n)

/-- The number in hexadecimal, with leading zeros up to the given width. Higher digits that the
width has no room for are left out. -/
def hexadecimal : (width : Nat) → (n : Nat) → List Char
  | 0, _ => []
  | w + 1, n => hexadecimal w (n / 16) ++ [hexDigit (n % 16)]

@[simp] theorem length_hexadecimal (w n : Nat) : (hexadecimal w n).length = w := by
  induction w generalizing n with
  | zero => rfl
  | succ w ih => simp [hexadecimal, ih]

/-- The value of a digit of a numeral in a base up to sixteen. -/
def digitValue (c : Char) : Nat :=
  if c.isDigit then c.toNat - 0x30
  else if 'a' ≤ c && c ≤ 'f' then c.toNat - 0x57
  else c.toNat - 0x37

/-- The number that a numeral denotes in the base. -/
def numeralValue (base : Nat) (digits : List Char) : Nat :=
  digits.foldl (fun n c => n * base + digitValue c) 0

end Netconf.Text
