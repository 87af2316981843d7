import Mathlib.Data.List.Induction
import Mathlib.Data.List.TakeWhile
import Mathlib.Tactic.Common
import Netconf.Text.Blank

/-!
# Texts without outer blanks

A text is blanks, the text that `trim` leaves and blanks again, and what is left does not end with a
blank.
-/

namespace Netconf.Text

/-- Whether a text is blank throughout. -/
def IsBlanks (s : List Char) : Prop := ∀ c ∈ s, isBlank c = true

instance (s : List Char) : Decidable (IsBlanks s) := List.decidableBAll _ _

lemma isBlanks_nil : IsBlanks [] := by
  intro c hc
  exact absurd hc List.not_mem_nil

lemma IsBlanks.not_mem {s : List Char} {c : Char} (h : IsBlanks s) (hc : isBlank c = false) :
    c ∉ s := by
  intro hmem
  rw [h c hmem] at hc
  cases hc

lemma exists_blanks_of_trimStart (s : List Char) :
    ∃ u, IsBlanks u ∧ s = u ++ trimStart s := by
  refine ⟨s.takeWhile isBlank, fun c hc => List.mem_takeWhile_imp hc, ?_⟩
  rw [trimStart, List.takeWhile_append_dropWhile]

lemma exists_blanks_of_trimEnd (s : List Char) : ∃ v, IsBlanks v ∧ s = trimEnd s ++ v := by
  obtain ⟨u, hu, hs⟩ := exists_blanks_of_trimStart s.reverse
  refine ⟨u.reverse, fun c hc => hu c (List.mem_reverse.1 hc), ?_⟩
  rw [trimEnd, ← List.reverse_append, ← trimStart, ← hs, List.reverse_reverse]

lemma isPrefix_trimEnd (s : List Char) : trimEnd s <+: s := by
  obtain ⟨v, -, hs⟩ := exists_blanks_of_trimEnd s
  exact ⟨v, hs.symm⟩

/-- Blanks are all that is taken off. -/
lemma exists_blanks_of_trim (s : List Char) :
    ∃ u v, IsBlanks u ∧ IsBlanks v ∧ s = u ++ (trim s ++ v) := by
  obtain ⟨u, hu, hs⟩ := exists_blanks_of_trimStart s
  obtain ⟨v, hv, hstart⟩ := exists_blanks_of_trimEnd (trimStart s)
  exact ⟨u, v, hu, hv, by rw [trim, ← hstart, ← hs]⟩

lemma isBlank_of_mem_head?_trimStart {s : List Char} {c : Char} (h : c ∈ (trimStart s).head?) :
    isBlank c = false := by
  have := List.head?_dropWhile_not isBlank s
  rw [trimStart] at h
  rw [Option.mem_def.1 h] at this
  simpa using this

/-- What is left does not end with a blank. -/
lemma isBlank_of_mem_getLast?_trimEnd {s : List Char} {c : Char} (h : c ∈ (trimEnd s).getLast?) :
    isBlank c = false := by
  rw [trimEnd, List.getLast?_reverse] at h
  exact isBlank_of_mem_head?_trimStart (s := s.reverse) h

/-- A text that does not end with a blank has none taken off its end. -/
lemma trimEnd_of_getLast? {s : List Char} {c : Char} (h : s.getLast? = some c)
    (hc : isBlank c = false) : trimEnd s = s := by
  have hhead : s.reverse.head? = some c := by rw [List.head?_reverse, h]
  obtain ⟨t, ht⟩ := List.head?_eq_some_iff.1 hhead
  rw [trimEnd, ht, List.dropWhile_cons_of_neg (by rw [hc]; exact Bool.false_ne_true), ← ht,
    List.reverse_reverse]

/-- Where something is left, the text in front of the last blanks ends with it. -/
lemma trimEnd_eq_append_trim {s : List Char} (h : trim s ≠ []) :
    ∃ u, IsBlanks u ∧ trimEnd s = u ++ trim s := by
  obtain ⟨u, v, hu, hv, hs⟩ := exists_blanks_of_trim s
  obtain ⟨c, hc⟩ : ∃ c, (trim s).getLast? = some c :=
    ⟨_, List.getLast?_eq_some_getLast h⟩
  have hlast : (u ++ trim s).getLast? = some c := by rw [List.getLast?_append, hc]; rfl
  -- the blanks at the end go on no further than to the last character that is left
  refine ⟨u, hu, ?_⟩
  calc trimEnd s
      = trimEnd ((u ++ trim s) ++ v) := by rw [List.append_assoc, ← hs]
    _ = trimEnd (u ++ trim s) := trimEnd_append_of_blank hv
    _ = u ++ trim s :=
      trimEnd_of_getLast? hlast (isBlank_of_mem_getLast?_trimEnd (s := trimStart s) hc)

/-- What is left does not start with a blank. -/
lemma isBlank_of_mem_head?_trim {s : List Char} {c : Char} (h : c ∈ (trim s).head?) :
    isBlank c = false := by
  obtain ⟨v, hv⟩ := isPrefix_trimEnd (trimStart s)
  refine isBlank_of_mem_head?_trimStart (s := s) ?_
  rw [← hv, List.head?_append, ← trim, Option.mem_def.1 h]
  rfl

/-- Behind the first blanks of a text, blanks at its end are still blanks at the end. -/
lemma IsBlanks.exists_trimStart_append {v : List Char} (hv : IsBlanks v) (s : List Char) :
    ∃ w, IsBlanks w ∧ trimStart (s ++ v) = trimStart s ++ w := by
  rw [trimStart, trimStart, List.dropWhile_append]
  by_cases hs : (s.dropWhile isBlank).isEmpty = true
  · refine ⟨[], isBlanks_nil, ?_⟩
    rw [if_pos hs, List.dropWhile_eq_nil_iff.2 hv, List.isEmpty_iff.1 hs, List.append_nil]
  · exact ⟨v, hv, if_neg hs⟩

/-- Blanks around a text are taken off. -/
lemma trim_outer {u v : List Char} (hu : IsBlanks u) (hv : IsBlanks v) (s : List Char) :
    trim (u ++ (s ++ v)) = trim s := by
  obtain ⟨w, hw, hs⟩ := hv.exists_trimStart_append s
  rw [trim, trimStart_append_of_blank hu, hs, trimEnd_append_of_blank hw, trim]

/-- Nothing is left of blanks. -/
lemma trim_of_isBlanks {s : List Char} (hs : IsBlanks s) : trim s = [] := by
  have := trim_outer hs isBlanks_nil []
  rwa [List.append_nil, List.append_nil] at this

/-- Behind its first blanks a text that is not blank starts alike whatever follows it. -/
lemma exists_head?_trimStart {s : List Char} (hs : ¬ IsBlanks s) :
    ∃ c ∈ s, ∀ t, (trimStart (s ++ t)).head? = some c := by
  have hne : s.dropWhile isBlank ≠ [] := fun h => hs (List.dropWhile_eq_nil_iff.1 h)
  obtain ⟨c, r, hcr⟩ := List.exists_cons_of_ne_nil hne
  refine ⟨c, (List.dropWhile_suffix isBlank).subset (hcr ▸ List.mem_cons_self),
    fun t => ?_⟩
  rw [trimStart, List.dropWhile_append, hcr]
  rfl

/-- In front of its last blanks it ends alike whatever precedes it. -/
lemma exists_getLast?_trimEnd {s : List Char} (hs : ¬ IsBlanks s) :
    ∃ c ∈ s, ∀ t, (trimEnd (t ++ s)).getLast? = some c := by
  have hreverse : ¬ IsBlanks s.reverse := fun h => hs fun c hc => h c (List.mem_reverse.2 hc)
  obtain ⟨c, hc, hhead⟩ := exists_head?_trimStart hreverse
  refine ⟨c, List.mem_reverse.1 hc, fun t => ?_⟩
  rw [trimEnd, List.getLast?_reverse, List.reverse_append]
  exact hhead t.reverse

/-- What stands only next to the blanks at an end is taken off with them. -/
lemma not_mem_trim {s : List Char} {c : Char} (hc : isBlank c = true)
    (h : ∀ a b, s = a ++ c :: b → IsBlanks a ∨ IsBlanks b) : c ∉ trim s := by
  intro hmem
  obtain ⟨u, v, -, -, hs⟩ := exists_blanks_of_trim s
  obtain ⟨a, b, hab⟩ := List.append_of_mem hmem
  -- neither end of what is left is blank
  have hfirst : ¬ IsBlanks (a ++ [c]) := by
    intro hblanks
    obtain ⟨d, r, hd⟩ := List.exists_cons_of_ne_nil (List.append_ne_nil_of_right_ne_nil a
      (List.cons_ne_nil c []))
    have hhead : d ∈ (trim s).head? := by
      rw [hab, List.append_cons, hd]
      rfl
    rw [hd] at hblanks
    exact Bool.false_ne_true ((isBlank_of_mem_head?_trim hhead).symm.trans
      (hblanks d List.mem_cons_self))
  have hlast : ¬ IsBlanks (c :: b) := by
    intro hblanks
    have hd : (c :: b).getLast (List.cons_ne_nil c b) ∈ (trim s).getLast? := by
      rw [hab, List.getLast?_append, List.getLast?_eq_some_getLast (List.cons_ne_nil c b)]
      rfl
    exact Bool.false_ne_true ((isBlank_of_mem_getLast?_trimEnd hd).symm.trans
      (hblanks _ (List.getLast_mem _)))
  rcases h (u ++ a) (b ++ v) (by rw [hs, hab]; simp) with hblanks | hblanks
  · refine hfirst fun d hd => ?_
    rcases List.mem_append.1 hd with hd | hd
    · exact hblanks d (List.mem_append_right u hd)
    · rwa [List.mem_singleton.1 hd]
  · refine hlast fun d hd => ?_
    rcases List.mem_cons.1 hd with rfl | hd
    · exact hc
    · exact hblanks d (List.mem_append_left v hd)

end Netconf.Text
