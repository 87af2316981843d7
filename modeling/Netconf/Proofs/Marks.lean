import Netconf.Proofs.TagText
import Netconf.Proofs.Xml.Tree
import Netconf.Reply.Success

/-!
# Success marks

A success mark is an element `ok` without content but blank text (`IsMark`). In text, a mark begins
where a start tag of the name stands that plain text shows (`reportsSuccess_startTag`), and it ends
where only blanks stand in front of the end tag (`closesEmpty_text`, `closesEmpty_endTag`).
-/

namespace Netconf.Reply

open Netconf.Text Netconf.Xml

/-! ## Marks among elements -/

/-- Whether an element is a success mark: of the name `ok` in any namespace, without children and
with blank text or none. -/
def IsMark (e : Element) : Prop :=
  e.name.base = okName ∧ e.children = [] ∧ IsBlanks e.text

lemma isMark_iff {e : Element} :
    IsMark e ↔ e.name.base = okName ∧ AllChars (isBlank · = true) e.content := by
  rw [IsMark, allChars_iff]
  rfl

/-- Whether a success mark stands in content, at any depth. -/
def HoldsMark (nodes : List Node) : Prop := ∃ e, e.IsIn nodes ∧ IsMark e

lemma holdsMark_append {a b : List Node} :
    HoldsMark (a ++ b) ↔ HoldsMark a ∨ HoldsMark b := by
  simp only [HoldsMark, Element.isIn_append, or_and_right, exists_or]

lemma holdsMark_reverse {nodes : List Node} : HoldsMark nodes.reverse ↔ HoldsMark nodes := by
  simp only [HoldsMark, Element.isIn_reverse]

lemma not_holdsMark_chars (s : List Char) : ¬ HoldsMark (s.map .char) := by
  rintro ⟨e, hin, -⟩
  exact Element.not_isIn_chars s hin

lemma not_holdsMark_nil : ¬ HoldsMark [] := not_holdsMark_chars []

/-- An element brings a mark if it is one or holds one. -/
lemma holdsMark_singleton {e : Element} :
    HoldsMark [.element e.tag e.content] ↔ IsMark e ∨ HoldsMark e.content := by
  simp only [HoldsMark, Element.isIn_singleton, Element.IsWithin, or_and_right, exists_or,
    exists_eq_left]

/-! ## Marks in text -/

lemma isNameChar_of_mem_okName : ∀ c ∈ okName, isNameChar c = true :=
  List.all_eq_true.1 (by decide)

/-- Text without an opening bracket holds no mark. -/
lemma reportsSuccess_append {w : List Char} (hw : '<' ∉ w) (s : List Char) :
    reportsSuccess (w ++ s) = reportsSuccess s := by
  induction w with
  | nil => rfl
  | cons c w ih =>
    rw [List.mem_cons, not_or] at hw
    have hc : startsWithMark (c :: (w ++ s)) = false := by
      unfold startsWithMark
      split
      · next heq => exact absurd (List.cons.inj heq).1.symm hw.1
      · rfl
    rw [List.cons_append, reportsSuccess, hc, Bool.false_or, ih hw.2]

lemma reportsSuccess_eq_false {s : List Char} (h : '<' ∉ s) : reportsSuccess s = false := by
  have := reportsSuccess_append h []
  rwa [List.append_nil] at this

/-- End tags and instructions hold no mark up to the next opening bracket. -/
lemma reportsSuccess_bracket {c : Char} {w : List Char} (hc : c = '/' ∨ c = '?') (hw : '<' ∉ w)
    (s : List Char) : reportsSuccess ('<' :: c :: (w ++ s)) = reportsSuccess s := by
  have hstart : startsWithMark ('<' :: c :: (w ++ s)) = false := by
    rcases hc with rfl | rfl <;> rfl
  have hw : '<' ∉ c :: w := by
    rw [List.mem_cons, not_or]
    exact ⟨by rcases hc with rfl | rfl <;> decide, hw⟩
  rw [reportsSuccess, hstart, Bool.false_or, ← List.cons_append, reportsSuccess_append hw]

lemma isMarkBehindName_attributes {as : List RawAttribute} {w : List Char} {e : Bool}
    (hw : IsAttributeText as w) (hgt : '>' ∉ w) (rest : List Char) :
    isMarkBehindName (w ++ (tagEnd e ++ rest)) = (e || closesEmpty rest) := by
  cases w with
  | nil => cases e <;> simp [isMarkBehindName, tagEnd, show isBlank '/' = false by decide,
      show isBlank '>' = false by decide]
  | cons c w =>
    have hblank : isBlank c = true := isBlank_of_isSpace (hw.starts c rfl)
    have hends : w.getLast? ≠ some '/' := by
      have := hw.ends
      cases w with
      | nil => exact fun heq => by cases heq
      | cons d w => rwa [List.getLast?_cons_cons] at this
    rw [List.mem_cons, not_or] at hgt
    rw [List.cons_append, isMarkBehindName, if_pos hblank, behindBracket?_append hgt.2 hends]
    rfl

lemma not_isMarkBehindName_of_isQNameChar {c : Char} {s : List Char} (h : isQNameChar c = true) :
    isMarkBehindName (c :: s) = false := by
  have hslash := ne_of_class h (by decide : isQNameChar '/' = false)
  have hgt := ne_of_class h (by decide : isQNameChar '>' = false)
  rw [isMarkBehindName, not_isBlank_of_isQNameChar h, if_neg Bool.false_ne_true,
    beq_eq_false_iff_ne.2 hslash, beq_eq_false_iff_ne.2 hgt]
  rfl

/-- A start tag that plain text shows to be of the name `ok` begins a mark if it is that of an
empty element, or if an end tag follows. -/
lemma reportsSuccess_startTag {n w : List Char} {as : List RawAttribute} {e : Bool}
    (hn : IsTagName n) (hw : IsAttributeText as w)
    (hgt : isPlainly okName n = true → '>' ∉ w) (rest : List Char) :
    reportsSuccess ('<' :: (n ++ (w ++ (tagEnd e ++ rest)))) =
      (isPlainly okName n && (e || closesEmpty rest) || reportsSuccess rest) := by
  have hstart : startsWithMark ('<' :: (n ++ (w ++ (tagEnd e ++ rest)))) =
      (isPlainly okName n && (e || closesEmpty rest)) := by
    rw [startsWithMark, any_behindName isNameChar_of_mem_okName hn (endsTagName_attributes hw)
      fun c s => not_isMarkBehindName_of_isQNameChar]
    cases hplain : isPlainly okName n with
    | false => rfl
    | true => rw [isMarkBehindName_attributes hw (hgt hplain)]
  have hopen : '<' ∉ n ++ (w ++ tagEnd e) := by
    have hend : '<' ∉ tagEnd e := by cases e <;> decide
    have hnames := hn.isBare.1
    have hattributes := hw.noOpening
    simp [hnames, hattributes, hend]
  have happend : n ++ (w ++ (tagEnd e ++ rest)) = (n ++ (w ++ tagEnd e)) ++ rest := by
    simp only [List.append_assoc]
  rw [reportsSuccess, hstart, happend, reportsSuccess_append hopen]

lemma reportsSuccess_endTag {n w : List Char} (hn : IsTagName n) (hw : IsSpaces w)
    (rest : List Char) :
    reportsSuccess ('<' :: '/' :: (n ++ (w ++ '>' :: rest))) = reportsSuccess rest := by
  have hopen : '<' ∉ n ++ (w ++ ['>']) := by
    have hnames := hn.isBare.1
    have hspaces := hw.isBare.1
    simp [hnames, hspaces]
  have happend : n ++ (w ++ '>' :: rest) = (n ++ (w ++ ['>'])) ++ rest := by simp
  rw [happend, reportsSuccess_bracket (Or.inl rfl) hopen]

/-! ## The end of a mark in text -/

lemma closesEmpty_endTag {n w : List Char} (hn : IsTagName n) (hw : IsSpaces w)
    (rest : List Char) :
    closesEmpty ('<' :: '/' :: (n ++ (w ++ '>' :: rest))) = isPlainly okName n := by
  rw [closesEmpty, List.dropWhile_cons_of_neg (by decide)]
  exact startsWithEndTag_append isNameChar_of_mem_okName hn hw rest

lemma closesEmpty_startTag {n : List Char} (hn : IsTagName n) (rest : List Char) :
    closesEmpty ('<' :: (n ++ rest)) = false := by
  obtain ⟨c, s, rfl, hc, -⟩ := hn
  have hslash : c ≠ '/' := ne_of_class hc (by decide)
  rw [closesEmpty, List.dropWhile_cons_of_neg (by decide)]
  unfold startsWithEndTag
  split
  · next heq =>
    rw [List.cons_append, List.cons.injEq, List.cons.injEq] at heq
    exact absurd heq.2.1 hslash
  · rfl

/-- Only blanks may stand in front of the end tag of a mark. -/
lemma closesEmpty_text {w : List Char} (hw : '<' ∉ w) (s : List Char) :
    closesEmpty (w ++ s) = true ↔ IsBlanks w ∧ closesEmpty s = true := by
  induction w with
  | nil => simp [IsBlanks]
  | cons c w ih =>
    rw [List.mem_cons, not_or] at hw
    rw [IsBlanks, List.forall_mem_cons, ← IsBlanks, and_assoc, ← ih hw.2]
    by_cases hc : isBlank c = true
    · rw [List.cons_append, closesEmpty, List.dropWhile_cons_of_pos hc, ← closesEmpty]
      exact ⟨fun h => ⟨hc, h⟩, fun h => h.2⟩
    · rw [List.cons_append, closesEmpty, List.dropWhile_cons_of_neg hc]
      refine ⟨?_, fun h => absurd h.1 hc⟩
      intro h
      have := head?_of_startsWithEndTag h
      exact absurd (Option.some.inj this).symm hw.1

end Netconf.Reply
