import Netconf.Proofs.TagText
import Netconf.Reply.Success

/-!
# How success marks are written

The search for the success mark asks no more of a text than that a mark is written somewhere in it
(`reportsSuccess_iff`). Each function of the search is matched with the part of a mark it looks for,
from the end tag up to the whole mark, and finds it at the start of a text exactly if it stands
there, in whatever way the text can be read.
-/

namespace Netconf.Reply

open Netconf.Text

/-! ## Marks -/

/-- What may stand between the name and the end of a start tag: nothing, or a blank and more without
a closing bracket. -/
def IsAttributePart (a : List Char) : Prop :=
  a = [] ∨ ∃ c w, isBlank c = true ∧ '>' ∉ w ∧ a = c :: w

/-- How a mark goes on behind its name: to the end of a single tag, or to the end of a start tag,
blanks and an end tag, whose qualifier may be another one. -/
inductive IsMarkEnd : List Char → Prop
  | single {a : List Char} (ha : IsAttributePart a) : IsMarkEnd (a ++ "/>".toList)
  | pair {a w e : List Char} (ha : IsAttributePart a) (hw : IsBlanks w)
      (he : IsEndTag okName e) : IsMarkEnd (a ++ '>' :: (w ++ e))

/-- How a mark is written. -/
def IsWrittenMark (m : List Char) : Prop :=
  ∃ q e, IsQualifier q ∧ IsMarkEnd e ∧ m = '<' :: (q ++ (okName ++ e))

/-! ## What is found at the start of a text -/

lemma closesEmpty_append {w e : List Char} (hw : IsBlanks w) (he : IsEndTag okName e)
    (rest : List Char) : closesEmpty (w ++ (e ++ rest)) = true := by
  have hopen : (e ++ rest).dropWhile isBlank = e ++ rest := by
    obtain ⟨q, v, -, -, rfl⟩ := he
    exact List.dropWhile_cons_of_neg (by decide)
  rw [closesEmpty, List.dropWhile_append_of_pos hw, hopen]
  exact he.startsWithEndTag rest

lemma exists_of_closesEmpty {s : List Char} (h : closesEmpty s = true) :
    ∃ w e, IsBlanks w ∧ IsEndTag okName e ∧ w ++ e <+: s := by
  obtain ⟨e, he, rest, hrest⟩ := exists_of_startsWithEndTag h
  refine ⟨s.takeWhile isBlank, e, fun c hc => List.mem_takeWhile_imp hc, he, rest, ?_⟩
  rw [List.append_assoc, hrest, List.takeWhile_append_dropWhile]

/-- Behind a blank, everything up to the first closing bracket belongs to the tag. -/
lemma isMarkBehindName_blank {c : Char} {a : List Char} (hc : isBlank c = true) (ha : '>' ∉ a)
    (rest : List Char) :
    isMarkBehindName (c :: (a ++ '>' :: rest)) = (a.getLast? == some '/' || closesEmpty rest) := by
  rw [isMarkBehindName, if_pos hc, behindBracket?_append_cons ha]
  rfl

lemma IsMarkEnd.isMarkBehindName {e : List Char} (h : IsMarkEnd e) (rest : List Char) :
    isMarkBehindName (e ++ rest) = true := by
  cases h with
  | @single a ha =>
    rcases ha with rfl | ⟨c, a, hc, ha, rfl⟩
    · rfl
    · have happend : (c :: a ++ "/>".toList) ++ rest = c :: ((a ++ ['/']) ++ '>' :: rest) := by
        simp
      have hgt : '>' ∉ a ++ ['/'] := by simp [ha]
      rw [happend, isMarkBehindName_blank hc hgt, List.getLast?_concat]
      rfl
  | @pair a w e ha hw he =>
    have hcloses := closesEmpty_append hw he rest
    have happend : (a ++ '>' :: (w ++ e)) ++ rest = a ++ '>' :: (w ++ (e ++ rest)) := by simp
    rw [happend]
    rcases ha with rfl | ⟨c, a, hc, ha, rfl⟩
    · exact hcloses
    · rw [List.cons_append, isMarkBehindName_blank hc ha, hcloses, Bool.or_true]

lemma exists_of_isMarkBehindName {s : List Char} (h : isMarkBehindName s = true) :
    ∃ e, IsMarkEnd e ∧ e <+: s := by
  cases s with
  | nil => cases h
  | cons c s =>
    by_cases hc : isBlank c = true
    · by_cases hgt : '>' ∈ s
      · obtain ⟨a, rest, rfl, ha⟩ := List.eq_append_cons_of_mem hgt
        rw [isMarkBehindName_blank hc ha, Bool.or_eq_true, beq_iff_eq] at h
        rcases h with hslash | hcloses
        · obtain ⟨a, rfl⟩ := List.getLast?_eq_some_iff.1 hslash
          have hattributes : IsAttributePart (c :: a) :=
            Or.inr ⟨c, a, hc, fun hmem => ha (List.mem_append_left _ hmem), rfl⟩
          exact ⟨_, .single hattributes, rest, by simp⟩
        · obtain ⟨w, e, hw, he, rest, rfl⟩ := exists_of_closesEmpty hcloses
          exact ⟨_, .pair (Or.inr ⟨c, a, hc, ha, rfl⟩) hw he, rest, by simp⟩
      · rw [isMarkBehindName, if_pos hc, behindBracket?_of_not_mem hgt] at h
        cases h
    · rw [isMarkBehindName, if_neg hc, Bool.or_eq_true, Bool.and_eq_true, Bool.and_eq_true,
        beq_iff_eq, beq_iff_eq, beq_iff_eq] at h
      rcases h with ⟨rfl, hhead⟩ | ⟨rfl, hcloses⟩
      · obtain ⟨rest, rfl⟩ := List.head?_eq_some_iff.1 hhead
        exact ⟨_, .single (Or.inl rfl), rest, rfl⟩
      · obtain ⟨w, e, hw, he, rest, rfl⟩ := exists_of_closesEmpty hcloses
        exact ⟨_, .pair (Or.inl rfl) hw he, rest, by simp⟩

/-- A mark is found at the start of a text exactly if it is written there. -/
lemma startsWithMark_iff {s : List Char} :
    startsWithMark s = true ↔ ∃ m, IsWrittenMark m ∧ m <+: s := by
  constructor
  · intro h
    unfold startsWithMark at h
    split at h
    · next s =>
      obtain ⟨r, hr, hmark⟩ := List.any_eq_true.1 h
      obtain ⟨q, hq, rfl⟩ := eq_of_mem_behindName hr
      obtain ⟨e, he, rest, rfl⟩ := exists_of_isMarkBehindName hmark
      exact ⟨_, ⟨q, e, hq, he, rfl⟩, rest, by simp⟩
    · cases h
  · rintro ⟨m, ⟨q, e, hq, he, rfl⟩, rest, rfl⟩
    have happend : '<' :: (q ++ (okName ++ e)) ++ rest = '<' :: (q ++ (okName ++ (e ++ rest))) := by
      simp
    rw [happend, startsWithMark, List.any_eq_true]
    exact ⟨e ++ rest, mem_behindName hq okName _, he.isMarkBehindName rest⟩

/-! ## What is found anywhere -/

lemma reportsSuccess_iff_isInfix {s : List Char} :
    reportsSuccess s = true ↔ ∃ m, IsWrittenMark m ∧ m <:+: s := by
  induction s with
  | nil =>
    refine iff_of_false Bool.false_ne_true ?_
    rintro ⟨m, ⟨q, e, -, -, rfl⟩, hinfix⟩
    cases List.eq_nil_of_infix_nil hinfix
  | cons c s ih =>
    rw [reportsSuccess, Bool.or_eq_true, startsWithMark_iff, ih, ← exists_or]
    simp only [List.infix_cons_iff, and_or_left]

/-- A mark ends with a bracket. -/
lemma IsWrittenMark.getLast? {m : List Char} (h : IsWrittenMark m) : m.getLast? = some '>' := by
  obtain ⟨q, e, -, he, rfl⟩ := h
  suffices hend : ∃ r, e = r ++ ['>'] by
    obtain ⟨r, rfl⟩ := hend
    exact List.getLast?_eq_some_iff.2 ⟨'<' :: (q ++ (okName ++ r)), by simp⟩
  cases he with
  | @single a ha => exact ⟨a ++ ['/'], by simp⟩
  | @pair a w e ha hw he =>
    obtain ⟨r, rfl⟩ := List.getLast?_eq_some_iff.1 he.getLast?
    exact ⟨a ++ '>' :: (w ++ r), by simp⟩

/-- **Success is reported by exactly the texts that a mark is written in.** The text need not be
well formed, and what stands around the mark does not matter: a text that reports success does so
wherever it stands. -/
theorem reportsSuccess_iff (t : List Char) :
    (reportsSuccess t = true ↔ ∃ a m b, IsWrittenMark m ∧ t = a ++ (m ++ b)) ∧
    (reportsSuccess t = true → ∀ a b, reportsSuccess (a ++ (t ++ b)) = true) := by
  constructor
  · rw [reportsSuccess_iff_isInfix]
    constructor
    · rintro ⟨m, hm, a, b, rfl⟩
      exact ⟨a, m, b, hm, List.append_assoc a m b⟩
    · rintro ⟨a, m, b, hm, rfl⟩
      exact ⟨m, hm, a, b, List.append_assoc a m b⟩
  · intro h a b
    obtain ⟨m, hm, hinfix⟩ := reportsSuccess_iff_isInfix.1 h
    have hwider : t <:+: a ++ (t ++ b) := ⟨a, b, List.append_assoc a t b⟩
    exact reportsSuccess_iff_isInfix.2 ⟨m, hm, hinfix.trans hwider⟩

/-- A mark whose qualifiers differ, with an attribute part that is no attribute, behind a tag that
is not closed. -/
def markBehindOpenTag : List Char := "<a <ok.ok-:ok /\"<\u2003></ok:ok\n>".toList

/-- The mark is found, whatever open tag or comment it stands in. -/
theorem reportsSuccess_markBehindOpenTag :
    reportsSuccess markBehindOpenTag = true ∧
    (∃ a m b, IsWrittenMark m ∧ markBehindOpenTag = a ++ (m ++ b)) ∧
    reportsSuccess ("<!-- <ok".toList ++ (markBehindOpenTag ++ "--><".toList)) = true := by
  have hmark : reportsSuccess markBehindOpenTag = true := by decide +kernel
  obtain ⟨hiff, hwider⟩ := reportsSuccess_iff markBehindOpenTag
  exact ⟨hmark, hiff.1 hmark, hwider hmark _ _⟩

end Netconf.Reply
