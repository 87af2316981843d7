/-!
# Marker lines

Chunked framing puts lines that start with `#` between the pieces of a message. Where sizes are
not counted, the framing is taken off by dropping every such line and joining the others.
-/

namespace Netconf.Framing

/-- The lines of a text: what stands between its line feeds. No other character ends a line. -/
def lines : List Char → List (List Char)
  | [] => [[]]
  | c :: s =>
    if c = '\n' then [] :: lines s
    else
      match lines s with
      | [] => [[c]]
      | line :: rest => (c :: line) :: rest

/-- Whether a line belongs to the framing. -/
def isMarkerLine (line : List Char) : Bool := line.head? == some '#'

/-- The text without its marker lines and without the ends of its lines. -/
def dropMarkerLines (s : List Char) : List Char :=
  ((lines s).filter fun line => !isMarkerLine line).flatten

/-- Even the empty text has a line. -/
theorem lines_ne_nil (s : List Char) : lines s ≠ [] := by
  cases s with
  | nil => simp [lines]
  | cons c s =>
    unfold lines
    split
    · simp
    · split <;> simp

end Netconf.Framing
