import Mathlib.Data.List.Basic
import Mathlib.Data.List.Flatten
import Netconf.Framing.MarkerLine

/-!
# Texts without marker lines

What is left of a text when its marker lines are dropped: a part of the text that holds no line feed
and does not start like a marker (`not_mem_dropMarkerLines`, `head?_dropMarkerLines`). Joining the
lines that are left makes no new marker line, so dropping a second time changes nothing, and the
texts that stay as they are are exactly those without line feeds and without a marker in front
(`dropMarkerLines_eq_self_iff`). Only line feeds are dropped where no line is a marker line
(`dropMarkerLines_eq_filter_iff`).
-/

namespace Netconf.Framing

/-! ## Lines -/

lemma lines_cons_of_ne {c : Char} (hc : c ≠ '\n') (s : List Char) :
    lines (c :: s) = (lines s).modifyHead (c :: ·) := by
  obtain ⟨line, rest, hlines⟩ := List.exists_cons_of_ne_nil (lines_ne_nil s)
  rw [lines, if_neg hc, hlines]
  rfl

/-- Lines are what stands between line feeds. -/
lemma lines_eq_splitOn (s : List Char) : lines s = s.splitOn '\n' := by
  induction s with
  | nil => rw [List.splitOn_nil]; rfl
  | cons c s ih =>
    rw [List.splitOn_cons_eq_if_modifyHead, ← ih]
    by_cases hc : c = '\n'
    · rw [if_pos (beq_iff_eq.2 hc), lines, if_pos hc]
    · rw [if_neg (by rwa [beq_iff_eq]), lines_cons_of_ne hc]

/-- A line feed ends a line, whatever stands around it. -/
lemma lines_append_lineFeed (s t : List Char) : lines (s ++ '\n' :: t) = lines s ++ lines t := by
  simp only [lines_eq_splitOn, List.splitOn_append_cons_self]

/-- A text without line feeds is a single line. -/
lemma lines_of_not_mem {s : List Char} (h : '\n' ∉ s) : lines s = [s] := by
  rw [lines_eq_splitOn, List.splitOn_eq_singleton h]

/-- The lines together are the text without its line feeds. -/
lemma flatten_lines (s : List Char) : (lines s).flatten = s.filter (· != '\n') := by
  induction s with
  | nil => rfl
  | cons c s ih =>
    by_cases hc : c = '\n'
    · rw [lines, if_pos hc, List.flatten_cons, List.nil_append, ih,
        List.filter_cons_of_neg (by simpa using hc)]
    · obtain ⟨line, rest, hlines⟩ := List.exists_cons_of_ne_nil (lines_ne_nil s)
      rw [lines_cons_of_ne hc, List.filter_cons_of_pos (by simpa using hc), ← ih, hlines]
      rfl

lemma dropMarkerLines_append_lineFeed (s t : List Char) :
    dropMarkerLines (s ++ '\n' :: t) = dropMarkerLines s ++ dropMarkerLines t := by
  rw [dropMarkerLines, lines_append_lineFeed, List.filter_append, List.flatten_append]
  rfl

lemma dropMarkerLines_lineFeed (s : List Char) : dropMarkerLines ('\n' :: s) = dropMarkerLines s :=
  dropMarkerLines_append_lineFeed [] s

/-- A line of the framing leaves nothing. -/
lemma dropMarkerLines_marker {s : List Char} (h : '\n' ∉ s) : dropMarkerLines ('#' :: s) = [] := by
  have hline : '\n' ∉ '#' :: s := by
    rw [List.mem_cons, not_or]
    exact ⟨by decide, h⟩
  rw [dropMarkerLines, lines_of_not_mem hline]
  rfl

/-- What is left is part of the text without its line feeds. -/
lemma dropMarkerLines_sublist_filter (s : List Char) :
    (dropMarkerLines s).Sublist (s.filter (· != '\n')) := by
  rw [← flatten_lines]
  exact List.filter_sublist.flatten

lemma dropMarkerLines_sublist (s : List Char) : (dropMarkerLines s).Sublist s :=
  (dropMarkerLines_sublist_filter s).trans List.filter_sublist

/-- No line feed is left. -/
lemma not_mem_dropMarkerLines (s : List Char) : '\n' ∉ dropMarkerLines s := by
  intro hmem
  have hfilter := (dropMarkerLines_sublist_filter s).mem hmem
  simpa using (List.mem_filter.1 hfilter).2

/-- What is left does not start like a marker, since it starts with a line that is none. -/
lemma head?_dropMarkerLines (s : List Char) : (dropMarkerLines s).head? ≠ some '#' := by
  intro hhead
  rw [dropMarkerLines, List.head?_flatten] at hhead
  obtain ⟨line, hline, hmarker⟩ := List.exists_of_findSome?_eq_some hhead
  have hkept := (List.mem_filter.1 hline).2
  rw [isMarkerLine, hmarker] at hkept
  cases hkept

lemma dropMarkerLines_of_not_mem {s : List Char} (h : '\n' ∉ s) (hhead : s.head? ≠ some '#') :
    dropMarkerLines s = s := by
  have hkept : isMarkerLine s = false := beq_eq_false_iff_ne.2 hhead
  rw [dropMarkerLines, lines_of_not_mem h, List.filter_cons_of_pos (by rw [hkept]; rfl)]
  exact List.append_nil s

/-- A text stays as it is exactly when it has no line feed and does not start like a marker. -/
lemma dropMarkerLines_eq_self_iff {s : List Char} :
    dropMarkerLines s = s ↔ '\n' ∉ s ∧ s.head? ≠ some '#' := by
  constructor
  · intro h
    rw [← h]
    exact ⟨not_mem_dropMarkerLines s, head?_dropMarkerLines s⟩
  · rintro ⟨h, hhead⟩
    exact dropMarkerLines_of_not_mem h hhead

/-- Dropping marker lines loses nothing exactly where there are none, since a marker line is not
empty. -/
lemma flatten_unmarked_eq_iff {ls : List (List Char)} :
    (ls.filter fun line => !isMarkerLine line).flatten = ls.flatten ↔
      ∀ line ∈ ls, isMarkerLine line = false := by
  induction ls with
  | nil => simp
  | cons line ls ih =>
    rw [List.forall_mem_cons, ← ih]
    cases hmarker : isMarkerLine line with
    | false =>
      rw [List.filter_cons_of_pos (by rw [hmarker]; rfl), List.flatten_cons, List.flatten_cons,
        List.append_cancel_left_eq]
      exact (and_iff_right rfl).symm
    | true =>
      rw [List.filter_cons_of_neg (by rw [hmarker]; decide), List.flatten_cons]
      refine iff_of_false ?_ fun h => absurd h.1.symm Bool.false_ne_true
      intro h
      -- the lines that are left are too short to make up for the one that is dropped
      have hshorter : (ls.filter fun line => !isMarkerLine line).flatten.length
          ≤ ls.flatten.length := List.filter_sublist.flatten.length_le
      rw [h, List.length_append] at hshorter
      obtain rfl : line = [] := List.eq_nil_of_length_eq_zero (by omega)
      cases hmarker

/-- Only line feeds are dropped exactly where no line is a marker line. -/
lemma dropMarkerLines_eq_filter_iff {s : List Char} :
    dropMarkerLines s = s.filter (· != '\n') ↔ ∀ line ∈ lines s, isMarkerLine line = false := by
  rw [dropMarkerLines, ← flatten_lines]
  exact flatten_unmarked_eq_iff

/-- What stands at the start of a text without marker lines has none either. -/
lemma dropMarkerLines_of_isPrefix {s t : List Char} (h : t <+: dropMarkerLines s) :
    dropMarkerLines t = t := by
  apply dropMarkerLines_of_not_mem
  · intro hmem
    exact not_mem_dropMarkerLines s (h.subset hmem)
  · obtain ⟨rest, hrest⟩ := h
    cases t with
    | nil => exact (Option.some_ne_none _).symm
    | cons c t =>
      have hhead := head?_dropMarkerLines s
      rwa [← hrest] at hhead

/-- **Marker lines are dropped line by line.** Of two texts with a line feed between them, what is
left of either is left. What is left has no line feed and does not start like a marker, so that
nothing more is dropped from it a second time, and nothing is dropped at all from exactly the texts
of this kind. Where no line starts like a marker, and only there, just the line feeds are dropped;
the other characters, carriage returns and Unicode's line separators among them, stay in order. -/
theorem dropMarkerLines_laws (a b t : List Char) :
    dropMarkerLines (a ++ '\n' :: b) = dropMarkerLines a ++ dropMarkerLines b ∧
    ('\n' ∉ dropMarkerLines t ∧ (dropMarkerLines t).head? ≠ some '#') ∧
    dropMarkerLines (dropMarkerLines t) = dropMarkerLines t ∧
    (dropMarkerLines t = t ↔ '\n' ∉ t ∧ t.head? ≠ some '#') ∧
    (dropMarkerLines t = t.filter (· != '\n') ↔
      ∀ line ∈ t.splitOn '\n', line.head? ≠ some '#') := by
  have hleft : '\n' ∉ dropMarkerLines t ∧ (dropMarkerLines t).head? ≠ some '#' :=
    ⟨not_mem_dropMarkerLines t, head?_dropMarkerLines t⟩
  refine ⟨dropMarkerLines_append_lineFeed a b, hleft, dropMarkerLines_eq_self_iff.2 hleft,
    dropMarkerLines_eq_self_iff, ?_⟩
  rw [dropMarkerLines_eq_filter_iff, lines_eq_splitOn]
  simp only [isMarkerLine, beq_eq_false_iff_ne]

-- no other separator ends a line, so the number sign behind one starts no marker line
example : dropMarkerLines "a\r\n#4\n\n \u2028#b\r\n##\n".toList = "a\r \u2028#b\r".toList := by
  decide

end Netconf.Framing
