/-!
# Blank characters

The white space that separates and surrounds text: more than XML's four characters, since it also
holds the separators of Unicode. `trim` removes it from both ends of a text and `trimEnd` from the
end alone.
-/

namespace Netconf.Text

/-- Whether the character is white space. -/
def isBlank (c : Char) : Bool :=
  let n := c.toNat
  (0x09 ≤ n && n ≤ 0x0D) || (0x1C ≤ n && n ≤ 0x20) || n == 0x85 || n == 0xA0 || n == 0x1680 ||
    (0x2000 ≤ n && n ≤ 0x200A) || n == 0x2028 || n == 0x2029 || n == 0x202F || n == 0x205F ||
    n == 0x3000

/-- The text without the blanks at its start. -/
def trimStart (s : List Char) : List Char := s.dropWhile isBlank

/-- The text without the blanks at its end. -/
def trimEnd (s : List Char) : List Char := (s.reverse.dropWhile isBlank).reverse

/-- The text without the blanks at both ends. -/
def trim (s : List Char) : List Char := trimEnd (trimStart s)

/-- Blanks at the start of a text do not change what is left of it. -/
theorem trimStart_append_of_blank {u s : List Char} (h : ∀ c ∈ u, isBlank c = true) :
    trimStart (u ++ s) = trimStart s := by
  induction u with
  | nil => rfl
  | cons c u ih =>
    simp only [List.mem_cons, forall_eq_or_imp] at h
    simpa [trimStart, h.1] using ih h.2

/-- Blanks at the end of a text do not change what is left of it. -/
theorem trimEnd_append_of_blank {s v : List Char} (h : ∀ c ∈ v, isBlank c = true) :
    trimEnd (s ++ v) = trimEnd s := by
  have hr : ∀ c ∈ v.reverse, isBlank c = true := fun c hc => h c (by simpa using hc)
  have := trimStart_append_of_blank (s := s.reverse) hr
  simpa [trimEnd, trimStart] using this

end Netconf.Text
