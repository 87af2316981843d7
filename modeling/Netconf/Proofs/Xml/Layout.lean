import Mathlib.Data.List.Infix
import Netconf.Proofs.Blank

/-!
# The layout of a text

A text is laid out on lines (`IsLaidOut`) where line feeds stand only in white space next to tags.
This is said of the text alone, and can be decided. It follows that no tag has a line feed
(`IsLaidOut.tag`), and that what stands between tags has none but in the blanks around it
(`IsLaidOut.gap`).
-/

namespace Netconf.Xml

open Netconf.Text

/-! ## The layout of a text -/

/-- Whether a text is laid out on lines. -/
structure IsLaidOut (x : List Char) : Prop where
  /-- There are no comments, character data sections or document type declarations. -/
  noBang : ¬ ['<', '!'] <:+: x
  /-- There are no instructions but XML declarations. -/
  declaration : ∀ before after, x = before ++ '<' :: '?' :: after →
    ∃ c rest, after = 'x' :: 'm' :: 'l' :: c :: rest ∧ isBlank c = true
  /-- Closing brackets stand at the end of tags only: an opening bracket stands in front of each,
  with no other closing one between them. -/
  brackets : ∀ before after, x = before ++ '>' :: after →
    ∃ a b, before = a ++ '<' :: b ∧ '>' ∉ b
  /-- The white space around a line feed begins at the start of the text or behind a closing
  bracket, or ends at the end of the text or in front of an opening bracket. -/
  lineFeeds : ∀ before after, x = before ++ '\n' :: after →
    (∀ c ∈ (trimEnd before).getLast?, c = '>') ∨ ∀ c ∈ (trimStart after).head?, c = '<'

/-! ### Deciding -/

section Cuts

/-- Whether a text is cut somewhere at a character, with a property of the two sides. -/
def HasCut (c : Char) (p : List Char → List Char → Prop) (x : List Char) : Prop :=
  ∃ a b, x = a ++ c :: b ∧ p a b

/-- Whether both sides have a property wherever a text is cut at a character. -/
def AtCuts (c : Char) (p : List Char → List Char → Prop) (x : List Char) : Prop :=
  ∀ a b, x = a ++ c :: b → p a b

variable {x : List Char} {c : Char} {p : List Char → List Char → Prop}

/-- A text is cut at a character where the character stands. -/
lemma hasCut_iff :
    HasCut c p x ↔ ∃ n < x.length, x[n]? = some c ∧ p (x.take n) (x.drop (n + 1)) := by
  constructor
  · rintro ⟨a, b, rfl, h⟩
    refine ⟨a.length, by simp, by simp, ?_⟩
    rwa [List.take_left, List.append_cons, List.drop_left' (by simp)]
  · rintro ⟨n, hn, hc, h⟩
    refine ⟨x.take n, x.drop (n + 1), ?_, h⟩
    rw [List.getElem?_eq_getElem hn, Option.some.injEq] at hc
    rw [← hc, ← List.drop_eq_getElem_cons hn, List.take_append_drop]

lemma atCuts_iff :
    AtCuts c p x ↔ ∀ n < x.length, x[n]? = some c → p (x.take n) (x.drop (n + 1)) := by
  have := not_congr (hasCut_iff (x := x) (c := c) (p := fun a b => ¬ p a b))
  rw [HasCut] at this
  push Not at this
  exact this

instance [∀ a b, Decidable (p a b)] : Decidable (HasCut c p x) := decidable_of_iff' _ hasCut_iff

instance [∀ a b, Decidable (p a b)] : Decidable (AtCuts c p x) := decidable_of_iff' _ atCuts_iff

end Cuts

lemma isDeclarationTarget_iff {s : List Char} :
    (∃ c rest, s = 'x' :: 'm' :: 'l' :: c :: rest ∧ isBlank c = true) ↔
      ['x', 'm', 'l'] <+: s ∧ (s.drop 3).head?.any isBlank = true := by
  constructor
  · rintro ⟨c, rest, rfl, h⟩
    exact ⟨⟨c :: rest, rfl⟩, h⟩
  · rintro ⟨⟨t, rfl⟩, h⟩
    cases t with
    | nil => cases h
    | cons c t => exact ⟨c, t, rfl, h⟩

lemma all_beq_iff {o : Option Char} {c : Char} : o.all (· == c) = true ↔ ∀ d ∈ o, d = c := by
  cases o with
  | none => simp
  | some d => simp

instance : DecidablePred IsLaidOut := fun x =>
  decidable_of_iff (¬ ['<', '!'] <:+: x ∧
      AtCuts '<' (fun _ after => after.head? = some '?' →
        ['x', 'm', 'l'] <+: after.tail ∧ (after.tail.drop 3).head?.any isBlank = true) x ∧
      AtCuts '>' (fun before _ => HasCut '<' (fun _ b => '>' ∉ b) before) x ∧
      AtCuts '\n' (fun before after => (trimEnd before).getLast?.all (· == '>') = true ∨
        (trimStart after).head?.all (· == '<') = true) x) <| by
    constructor
    · rintro ⟨hbang, hdeclaration, hbrackets, hfeeds⟩
      exact ⟨hbang, fun before after hx =>
        isDeclarationTarget_iff.2 (hdeclaration before _ hx rfl), hbrackets,
        fun before after hx => (hfeeds before after hx).imp all_beq_iff.1 all_beq_iff.1⟩
    · intro h
      refine ⟨h.noBang, fun before after hx hhead => ?_, h.brackets, fun before after hx =>
        (h.lineFeeds before after hx).imp all_beq_iff.2 all_beq_iff.2⟩
      obtain ⟨rest, rfl⟩ := List.head?_eq_some_iff.1 hhead
      exact isDeclarationTarget_iff.1 (h.declaration before rest hx)

/-! ### Between brackets -/

/-- Of two ends of a text, the one without a character stands behind the one that begins with it. -/
lemma suffix_behind {t b g : List Char} {c : Char} (hb : c :: b <:+ t) (hg : g <:+ t)
    (hc : c ∉ g) : g <:+ b := by
  rcases List.suffix_or_suffix_of_suffix hb hg with h | h
  · exact absurd (h.subset List.mem_cons_self) hc
  · rcases List.suffix_cons_iff.1 h with rfl | h
    · exact absurd List.mem_cons_self hc
    · exact h

section Layout

variable {before after g q : List Char}

/-- A line feed between tags stands next to the blanks at an end of what is between them. -/
lemma IsLaidOut.gap (h : IsLaidOut (before ++ '>' :: (g ++ '<' :: after))) (hopen : '<' ∉ g) :
    '\n' ∉ trim g := by
  have hclose : '>' ∉ g := by
    intro hmem
    obtain ⟨g₁, g₂, rfl⟩ := List.append_of_mem hmem
    obtain ⟨a, b, hab, hb⟩ := h.brackets (before ++ '>' :: g₁) (g₂ ++ '<' :: after) (by simp)
    have hnone : '<' ∉ '>' :: g₁ := by
      intro hmem
      rcases List.mem_cons.1 hmem with heq | hmem
      · cases heq
      · exact hopen (List.mem_append_left _ hmem)
    exact hb ((suffix_behind ⟨a, hab.symm⟩ ⟨before, rfl⟩ hnone).subset List.mem_cons_self)
  refine not_mem_trim (by decide) fun g₁ g₂ hg => ?_
  subst hg
  rw [or_iff_not_imp_left]
  intro hg₁
  by_contra hg₂
  rcases h.lineFeeds (before ++ '>' :: g₁) (g₂ ++ '<' :: after) (by simp) with hlast | hfirst
  · obtain ⟨c, hc, hlast'⟩ := exists_getLast?_trimEnd hg₁
    have hlast' := hlast' (before ++ ['>'])
    rw [List.append_assoc, List.singleton_append] at hlast'
    rw [hlast c hlast'] at hc
    exact hclose (List.mem_append_left _ hc)
  · obtain ⟨c, hc, hfirst'⟩ := exists_head?_trimStart hg₂
    rw [hfirst c (hfirst' ('<' :: after))] at hc
    exact hopen (List.mem_append_right _ (List.mem_cons_of_mem _ hc))

/-- There is no line feed and no further bracket in a tag. -/
lemma IsLaidOut.tag (h : IsLaidOut (before ++ '<' :: (q ++ '>' :: after))) (hopen : '<' ∉ q) :
    '>' ∉ q ∧ '\n' ∉ q := by
  have hclose : '>' ∉ q := by
    intro hmem
    obtain ⟨a, b, hab, hb⟩ := h.brackets (before ++ '<' :: q) after (by simp)
    have hq : q <:+ before ++ '<' :: q := ⟨before ++ ['<'], by simp⟩
    exact hb ((suffix_behind ⟨a, hab.symm⟩ hq hopen).subset hmem)
  refine ⟨hclose, fun hmem => ?_⟩
  obtain ⟨q₁, q₂, rfl⟩ := List.append_of_mem hmem
  rcases h.lineFeeds (before ++ '<' :: q₁) (q₂ ++ '>' :: after) (by simp) with hlast | hfirst
  · have hstart : ¬ IsBlanks ('<' :: q₁) := fun hblanks => by cases hblanks '<' List.mem_cons_self
    obtain ⟨c, hc, hlast'⟩ := exists_getLast?_trimEnd hstart
    rw [hlast c (hlast' before)] at hc
    rcases List.mem_cons.1 hc with heq | hc
    · cases heq
    · exact hclose (List.mem_append_left _ hc)
  · have hend : ¬ IsBlanks (q₂ ++ ['>']) := fun hblanks => by
      cases hblanks '>' (List.mem_append_right _ List.mem_cons_self)
    obtain ⟨c, hc, hfirst'⟩ := exists_head?_trimStart hend
    have hfirst' := hfirst' after
    rw [List.append_assoc, List.singleton_append] at hfirst'
    rw [hfirst c hfirst'] at hc
    rcases List.mem_append.1 hc with hc | hc
    · exact hopen (List.mem_append_right _ (List.mem_cons_of_mem _ hc))
    · cases List.mem_singleton.1 hc

end Layout

/-! ## Brackets -/

/-- Whether every opening bracket of a text is closed before the next one. -/
def IsBracketed (s : List Char) : Prop :=
  ∀ a b, s = a ++ '<' :: b → ∃ q r, b = q ++ '>' :: r ∧ '<' ∉ q

lemma isBracketed_of_not_mem {s : List Char} (h : '<' ∉ s) : IsBracketed s := by
  rintro a b rfl
  exact absurd (List.mem_append_right a List.mem_cons_self) h

lemma IsBracketed.append {s t : List Char} (hs : IsBracketed s) (ht : IsBracketed t) :
    IsBracketed (s ++ t) := by
  intro a b hab
  rcases List.append_eq_append_iff.1 hab with ⟨x, rfl, hx⟩ | ⟨x, rfl, hx⟩
  · exact ht x b hx
  · cases x with
    | nil => exact ht [] b hx.symm
    | cons c x =>
      obtain ⟨rfl, rfl⟩ := List.cons.inj hx
      obtain ⟨q, r, rfl, hq⟩ := hs a x rfl
      exact ⟨q, r ++ t, by simp, hq⟩

lemma isBracketed_tag {q : List Char} (hq : '<' ∉ q) : IsBracketed ('<' :: (q ++ ['>'])) := by
  intro a b hab
  cases a with
  | nil =>
    obtain ⟨-, rfl⟩ := List.cons.inj hab
    exact ⟨q, [], rfl, hq⟩
  | cons c a =>
    have hmem : '<' ∈ q ++ ['>'] := by
      rw [(List.cons.inj hab).2]
      exact List.mem_append_right a List.mem_cons_self
    rcases List.mem_append.1 hmem with hmem | hmem
    · exact absurd hmem hq
    · cases List.mem_singleton.1 hmem

end Netconf.Xml
