import Netconf.Proofs.Xml.Locality
import Netconf.Proofs.Xml.Prolog

/-!
# Plain parts of a text

A part of a text without comments, character data sections, document type declarations and
instructions other than XML declarations. In such a part only white space stands around the root
element.
-/

namespace Netconf.Xml

open Netconf.Text

/-- Whether a part of a text has no markup with an exclamation mark and no instruction but XML
declarations. -/
structure IsPlainPart (s : List Char) : Prop where
  noBang : ¬ ['<', '!'] <:+: s
  noInstruction : ∀ r rest, '<' :: '?' :: r <:+ s → scanInstruction r ≠ .ok (false, rest)

lemma IsPlainPart.of_suffix {s t : List Char} (h : IsPlainPart t) (hs : s <:+ t) :
    IsPlainPart s where
  noBang := fun hbang => h.noBang (hbang.trans hs.isInfix)
  noInstruction := fun r rest hr => h.noInstruction r rest (hr.trans hs)

lemma IsPlainPart.of_append {s t : List Char} (h : IsPlainPart (s ++ t)) : IsPlainPart s where
  noBang := fun hbang => h.noBang (hbang.trans (List.prefix_append s t).isInfix)
  noInstruction := fun r rest ⟨x, hx⟩ hscan => by
    -- an instruction is one whatever follows it
    obtain ⟨w, rfl, hw⟩ := takes_of_scanInstruction hscan
    obtain ⟨b, hb, rfl⟩ := hw (rest ++ t)
    rw [← List.append_assoc] at hb
    exact h.noInstruction _ _ ⟨x, by rw [← hx]; simp⟩ hb

/-- An instruction whose target is `xml` is a declaration. -/
lemma isDeclaration_of_xml {r v rest w : List Char} {b : Bool} {c : Char}
    (h : scanInstruction r = .ok (b, rest)) (hr : r ++ v = 'x' :: 'm' :: 'l' :: c :: w)
    (hc : isBlank c = true) : b = true := by
  obtain ⟨target, r', hname, rfl, hb, hr'⟩ := eq_of_scanInstruction h
  -- the target ends at a character that is not in a name
  have hstop : ∃ d s, r' = d :: s ∧ isNameChar d = false := by
    rcases hr' with rfl | ⟨d, body, hd, rfl, -⟩
    · exact ⟨'?', _, rfl, by decide⟩
    · exact ⟨d, body, rfl, isNameChar_of_isBlank (isBlank_of_isSpace hd)⟩
  obtain ⟨d, s, rfl, hd⟩ := hstop
  have htarget : (target ++ d :: s ++ v).takeWhile isNameChar = target := by
    rw [List.append_assoc, List.cons_append, List.takeWhile_append_of_pos hname.isNameChar,
      List.takeWhile_cons_of_neg (by rw [hd]; exact Bool.false_ne_true), List.append_nil]
  have hxml : ("xml".toList ++ c :: w).takeWhile isNameChar = "xml".toList := by
    rw [List.takeWhile_append_of_pos (List.all_eq_true.1 (by decide)),
      List.takeWhile_cons_of_neg (by rw [isNameChar_of_isBlank hc]; exact Bool.false_ne_true),
      List.append_nil]
  have heq : target = "xml".toList := by
    rw [← htarget, hr]
    exact hxml
  rw [hb, heq, beq_self_eq_true]

/-- Where every instruction of a text begins like an XML declaration, its parts are plain. -/
lemma isPlainPart_of_declarations {t before s v : List Char} (hbang : ¬ ['<', '!'] <:+: t)
    (hdeclaration : ∀ before after, t = before ++ '<' :: '?' :: after →
      ∃ c rest, after = 'x' :: 'm' :: 'l' :: c :: rest ∧ isBlank c = true)
    (ht : t = before ++ (s ++ v)) : IsPlainPart s where
  noBang := fun h => hbang (h.trans ⟨before, v, by rw [ht, List.append_assoc]⟩)
  noInstruction := fun r rest ⟨x, hx⟩ hscan => by
    obtain ⟨c, w, hr, hc⟩ := hdeclaration (before ++ x) (r ++ v) (by rw [ht, ← hx]; simp)
    have := isDeclaration_of_xml hscan hr hc
    cases this

/-- In a plain part only white space stands in front of the root element. -/
lemma spaces_of_isProlog {allowed : List Char → Prop} {root s : List Char}
    (h : IsProlog allowed root s) (hs : IsPlainPart s) : ∃ w, IsSpaces w ∧ s = w ++ root := by
  induction h with
  | root _ _ => exact ⟨[], fun c hc => absurd hc List.not_mem_nil, rfl⟩
  | @space w s hw _ ih =>
    obtain ⟨w', hw', rfl⟩ := ih (hs.of_suffix (List.suffix_append w s))
    refine ⟨w ++ w', ?_, by rw [List.append_assoc]⟩
    intro c hc
    exact (List.mem_append.1 hc).elim (hw c) (hw' c)
  | comment _ _ _ => exact absurd ⟨[], _, rfl⟩ hs.noBang
  | instruction hr _ _ => exact absurd hr (hs.noInstruction _ _ List.suffix_rfl)
  | doctype _ _ _ => exact absurd ⟨[], _, rfl⟩ hs.noBang

/-- In a plain part only white space stands behind the root element. -/
lemma isSpaces_of_isEpilog {s : List Char} (h : IsEpilog s) (hs : IsPlainPart s) :
    IsSpaces s := by
  induction h with
  | ended => exact fun c hc => absurd hc List.not_mem_nil
  | @space w s hw _ ih =>
    have := ih (hs.of_suffix (List.suffix_append w s))
    intro c hc
    exact (List.mem_append.1 hc).elim (hw c) (this c)
  | comment _ _ _ => exact absurd ⟨[], _, rfl⟩ hs.noBang
  | instruction hr _ _ => exact absurd hr (hs.noInstruction _ _ List.suffix_rfl)

end Netconf.Xml
