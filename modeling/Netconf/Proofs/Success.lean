import Netconf.Proofs.Marks
import Netconf.Proofs.Reply
import Netconf.Proofs.Xml.Declaration
import Netconf.Proofs.Xml.Document
import Netconf.Proofs.Xml.PlainPart

/-!
# The success mark of a document

Whether a reply reports success is looked for in its text. Where plain text shows the elements `ok`
(`ShowsMarks`), this agrees with the elements that are read: token by token, a mark is in what has
been read, or begins in what has been read and goes on in the text, or is in the text
(`reports_of_step`).
-/

namespace Netconf.Reply

open Netconf.Outcome Netconf.Text Netconf.Xml

/-! ## Reading token by token -/

/-- What plain text needs in order to show a start tag: if the local name is `ok`, the qualifier is
a word with dots and hyphens, and no value has a closing bracket. -/
def IsPlainTag : Markup → Prop
  | .startTag tag => (splitQName tag.name).2 = okName →
      hasPlainQualifier tag.name = true ∧ ∀ a ∈ tag.attributes, ValuePart.char '>' ∉ a.value
  | _ => True

instance : DecidablePred IsPlainTag
  | .startTag _ => inferInstanceAs (Decidable (_ → _))
  | .endTag _ | .text _ | .cdata _ | .reference _ | .aside | .declaration | .broken _ =>
    isTrue trivial

/-- What plain text needs in order to show a token: no reference, comment, instruction or character
data section, and start tags that it shows. -/
def IsPlainMarkup : Markup → Prop
  | .reference _ | .cdata _ | .aside => False
  | m => IsPlainTag m

/-- Whether plain text shows the name of an element exactly if it is `ok`. -/
def IsShown (element : List Char × Tag) : Prop :=
  element.2.name.base = okName ↔ isPlainly okName element.1 = true

lemma isShown_of_isPlainMarkup {tag : RawTag} {resolved : Tag}
    (h : IsPlainMarkup (.startTag tag)) (hbase : resolved.name.base = (splitQName tag.name).2) :
    IsShown (tag.name, resolved) := by
  rw [IsShown, hbase, isPlainly_iff]
  exact ⟨fun hok => ⟨hok, (h hok).1⟩, fun hok => hok.1⟩

/-- Whether a mark stands in what has been read. -/
def Found (stack : Stack) : Prop := ∃ f ∈ stack, HoldsMark f.content

/-- Whether the innermost open element is a mark as far as it has been read, and the text goes on
with its end. -/
def Begun (s : List Char) : Stack → Prop
  | [] => False
  | f :: _ => f.tag.name.base = okName ∧ AllChars (isBlank · = true) f.content ∧
      closesEmpty s = true

/-- Whether success is reported by what has been read and the text that is left. -/
def Reports (s : List Char) : Progress → Prop
  | .inside stack => Found stack ∨ Begun s stack ∨ reportsSuccess s = true
  | .complete root => (IsMark root ∨ HoldsMark root.content) ∨ reportsSuccess s = true

lemma found_cons {f : Frame} {fs : Stack} : Found (f :: fs) ↔ HoldsMark f.content ∨ Found fs := by
  simp [Found]

lemma not_found_nil : ¬ Found [] := by
  rintro ⟨f, hf, -⟩
  cases hf

/-- A complete element counts wherever it is added. -/
lemma reports_addElement {e : Element} {stack : Stack} {s : List Char} :
    Reports s (stack.addElement e) ↔
      (IsMark e ∨ HoldsMark e.content) ∨ Found stack ∨ reportsSuccess s = true := by
  cases stack with
  | nil =>
    rw [Stack.addElement, Reports, or_iff_right not_found_nil]
  | cons f fs =>
    have hbegun : ¬ Begun s (Stack.add [.element e.tag e.content] (f :: fs)) := by
      rintro ⟨-, hchars, -⟩
      obtain ⟨c, hc, -⟩ := hchars _ List.mem_cons_self
      cases hc
    have hfound : Found (Stack.add [.element e.tag e.content] (f :: fs)) ↔
        (IsMark e ∨ HoldsMark e.content) ∨ Found (f :: fs) := by
      rw [Stack.add, found_cons, found_cons, holdsMark_append, holdsMark_singleton, or_assoc]
    rw [Stack.addElement, Reports, or_iff_right hbegun, hfound, or_assoc]

lemma found_addText {w : List Char} {stack : Stack} : Found (stack.addText w) ↔ Found stack := by
  cases stack with
  | nil => rfl
  | cons f fs =>
    have hchars : ¬ HoldsMark (w.map Node.char).reverse := by
      rw [holdsMark_reverse]
      exact not_holdsMark_chars w
    rw [Stack.addText, Stack.add, found_cons, found_cons, holdsMark_append,
      or_iff_right hchars]

/-- Line ends are blank however they are written. -/
lemma isBlanks_unifyLineEnds {w : List Char} : IsBlanks (unifyLineEnds w) ↔ IsBlanks w :=
  forall_mem_unifyLineEnds (by decide) (by decide)

lemma not_begun_of_closesEmpty {s : List Char} {stack : Stack} (h : closesEmpty s = false) :
    ¬ Begun s stack := by
  cases stack with
  | nil => exact id
  | cons f fs =>
    rintro ⟨-, -, hcloses⟩
    rw [h] at hcloses
    cases hcloses

/-- Text keeps a mark begun if it is blank. -/
lemma begun_text {w rest : List Char} {stack : Stack} (hw : '<' ∉ w) :
    Begun rest (stack.addText (unifyLineEnds w)) ↔ Begun (w ++ rest) stack := by
  cases stack with
  | nil => rfl
  | cons f fs =>
    rw [Stack.addText, Stack.add, Begun, Begun, allChars_append, allChars_reverse, allChars_chars,
      ← IsBlanks, isBlanks_unifyLineEnds, closesEmpty_text hw]
    constructor
    · rintro ⟨hname, ⟨hblank, hchars⟩, hcloses⟩
      exact ⟨hname, hchars, hblank, hcloses⟩
    · rintro ⟨hname, hchars, hblank, hcloses⟩
      exact ⟨hname, ⟨hblank, hchars⟩, hcloses⟩

section Step

variable {d : Dtd} {opened : List (List Char)}
variable {expand : (name text : List Char) → Stack → Except Problem Stack}
variable {s rest : List Char} {m : Markup} {stack : Stack} {p : Progress}

/-- A start tag ends no mark, and reports success as its element does so far. -/
lemma reportsSuccess_of_startTag {tag : RawTag} (hscan : scanMarkup s = .ok (.startTag tag, rest))
    (hm : IsPlainMarkup (.startTag tag)) (v : List Char) :
    closesEmpty (s ++ v) = false ∧ reportsSuccess (s ++ v) =
      (isPlainly okName tag.name && (tag.isEmpty || closesEmpty (rest ++ v)) ||
        reportsSuccess (rest ++ v)) := by
  obtain ⟨hn, w, hw, hs⟩ := eq_of_scanMarkup_startTag hscan
  have hs : s ++ v = '<' :: (tag.name ++ (w ++ (tagEnd tag.isEmpty ++ (rest ++ v)))) := by
    rw [hs]
    simp only [List.cons_append, List.append_assoc]
  have hgt : isPlainly okName tag.name = true → '>' ∉ w := by
    intro hplain hmem
    obtain ⟨a, ha, hvalue⟩ := hw.closing hmem
    exact (hm (isPlainly_iff.1 hplain).1).2 a ha hvalue
  rw [hs]
  exact ⟨closesEmpty_startTag hn _, reportsSuccess_startTag hn hw hgt _⟩

/-- **No token changes whether success is reported.** What a token takes from the text it adds to
what has been read. -/
lemma reports_of_step (hscan : scanMarkup s = .ok (m, rest)) (hm : IsPlainMarkup m)
    (hshown : ∀ element ∈ stack.tags, IsShown element)
    (h : Step d .document opened expand s stack m p) (v : List Char) :
    Reports (rest ++ v) p ↔ Reports (s ++ v) (.inside stack) := by
  cases h with
  | text w =>
    cases scanMarkup_cases hscan with
    | text hs _ hw =>
      rw [hs, List.append_assoc, Reports, Reports, reportsSuccess_append hw]
      show Found (stack.addText (unifyLineEnds w)) ∨
        Begun _ (stack.addText (unifyLineEnds w)) ∨ _ ↔ _
      rw [found_addText, begun_text hw]
  | cdata w => cases hm
  | aside => cases hm
  | @emptyTag tag resolved scope hempty hr =>
    obtain ⟨hcloses, hreports⟩ := reportsSuccess_of_startTag hscan hm v
    have hname : resolved.name.base = okName ↔ isPlainly okName tag.name = true :=
      isShown_of_isPlainMarkup hm (base_of_resolveTag hr)
    have hbegun : ¬ Begun (s ++ v) stack := not_begun_of_closesEmpty hcloses
    have hmark : IsMark ⟨resolved, []⟩ ∨ HoldsMark [] ↔ isPlainly okName tag.name = true := by
      rw [or_iff_left not_holdsMark_nil, isMark_iff, ← hname]
      exact and_iff_left fun node hnode => absurd hnode List.not_mem_nil
    rw [reports_addElement, hmark, Reports, or_iff_right hbegun, hreports, hempty, Bool.true_or,
      Bool.and_true, Bool.or_eq_true, or_left_comm]
  | @startTag tag resolved scope hempty hr =>
    obtain ⟨hcloses, hreports⟩ := reportsSuccess_of_startTag hscan hm v
    have hname : resolved.name.base = okName ↔ isPlainly okName tag.name = true :=
      isShown_of_isPlainMarkup hm (base_of_resolveTag hr)
    have hbegun : ¬ Begun (s ++ v) stack := not_begun_of_closesEmpty hcloses
    have hbegun' : Begun (rest ++ v) (⟨tag.name, resolved, scope, []⟩ :: stack) ↔
        isPlainly okName tag.name = true ∧ closesEmpty (rest ++ v) = true := by
      rw [Begun, ← hname]
      exact and_congr_right fun _ =>
        and_iff_right fun node hnode => absurd hnode List.not_mem_nil
    have hcontent : ¬ HoldsMark (⟨tag.name, resolved, scope, []⟩ : Frame).content :=
      not_holdsMark_nil
    rw [Reports, Reports, or_iff_right hbegun, found_cons, or_iff_right hcontent, hbegun',
      hreports, hempty, Bool.false_or, Bool.or_eq_true, Bool.and_eq_true]
  | @endTag f fs hstack =>
    obtain ⟨hn, w, hw, hs⟩ := eq_of_scanMarkup_endTag hscan
    have hs : s ++ v = '<' :: '/' :: (f.written ++ (w ++ '>' :: (rest ++ v))) := by
      rw [hs]
      simp only [List.cons_append, List.append_assoc]
    subst hstack
    have hname : f.tag.name.base = okName ↔ isPlainly okName f.written = true :=
      hshown (f.written, f.tag) List.mem_cons_self
    have hmark : IsMark ⟨f.tag, f.content.reverse⟩ ↔ Begun (s ++ v) (f :: fs) := by
      rw [isMark_iff, Begun, hs, closesEmpty_endTag hn hw, ← hname, allChars_reverse]
      exact ⟨fun h => ⟨h.1, h.2, h.1⟩, fun h => ⟨h.1, h.2.1⟩⟩
    have hreports : reportsSuccess (s ++ v) = reportsSuccess (rest ++ v) := by
      rw [hs, reportsSuccess_endTag hn hw]
    rw [reports_addElement, hmark, holdsMark_reverse, Reports, found_cons, hreports]
    tauto
  | character _ => cases hm
  | entity he => cases hm

/-- The elements that a token leaves open are shown if those before it were. -/
lemma isShown_of_step {stack' : Stack} (hm : IsPlainMarkup m)
    (hshown : ∀ element ∈ stack.tags, IsShown element)
    (h : Step d .document opened expand s stack m (.inside stack')) :
    ∀ element ∈ stack'.tags, IsShown element := by
  generalize hp : Progress.inside stack' = p at h
  cases h with
  | text w =>
    cases hp
    rwa [Stack.tags_addText]
  | cdata w => cases hm
  | aside => cases hm
  | emptyTag hempty hr =>
    rwa [Stack.tags_of_addElement hp.symm]
  | startTag hempty hr =>
    cases hp
    intro element helement
    rcases List.mem_cons.1 helement with rfl | helement
    · exact isShown_of_isPlainMarkup hm (base_of_resolveTag hr)
    · exact hshown element helement
  | @endTag f fs hstack =>
    subst hstack
    rw [Stack.tags_of_addElement hp.symm]
    intro element helement
    exact hshown element (List.mem_cons_of_mem _ helement)
  | character _ => cases hm
  | entity he => cases hm

end Step

/-- What holds in front of every token of a plain text with `v` behind it: the tokens that are left
belong to the text, the open elements are shown, and success is reported as by the whole text. -/
structure Agrees (s v place : List Char) (stack : Stack) : Prop where
  left : lex place <:+ lex s
  shown : ∀ element ∈ stack.tags, IsShown element
  reports : Reports (place ++ v) (.inside stack) ↔ reportsSuccess (s ++ v) = true

section Root

variable {d : Dtd} {s v place rest : List Char} {m : Markup} {stack stack' : Stack}

lemma agrees_nil : Agrees s v s [] where
  left := List.suffix_rfl
  shown := fun element helement => absurd helement List.not_mem_nil
  reports := by
    rw [Reports, or_iff_right not_found_nil]
    exact or_iff_right id

/-- The next token is one of the text, and the tokens behind it are too. -/
lemma Agrees.next (h : Agrees s v place stack) (hplain : ∀ t ∈ lex s, IsPlainMarkup t.markup)
    (hscan : scanMarkup place = .ok (m, rest)) : IsPlainMarkup m ∧ lex rest <:+ lex s := by
  have hleft := h.left
  rw [lex_of_scanMarkup hscan] at hleft
  exact ⟨hplain _ (hleft.subset List.mem_cons_self), (List.suffix_cons _ _).trans hleft⟩

/-- A token that does not complete the root keeps the agreement. -/
lemma Agrees.step (h : Agrees s v place stack) (hplain : ∀ t ∈ lex s, IsPlainMarkup t.markup)
    (hscan : scanMarkup place = .ok (m, rest))
    (hstep : documentStep d ⟨m, place, rest⟩ stack = .ok (.inside stack')) :
    Agrees s v rest stack' := by
  obtain ⟨hm, hrest⟩ := h.next hplain hscan
  have hstep := step_cases hstep
  exact ⟨hrest, isShown_of_step hm h.shown hstep,
    (reports_of_step hscan hm h.shown hstep v).trans h.reports⟩

/-- Over a whole root element, success is reported by the elements that were read and by the text
behind the root. -/
lemma reports_of_readRoot {root : Element} {closing : Token}
    (hplain : ∀ t ∈ lex s, IsPlainMarkup t.markup)
    (h : readRoot (documentStep d) (lex s) [] = .ok (root, closing)) (v : List Char) :
    Reports (closing.rest ++ v) (.complete root) ↔ reportsSuccess (s ++ v) = true := by
  -- the agreement holds up to the token that completes the root, and this one keeps it as well
  obtain ⟨stack, hagrees, hscan, hstep⟩ := readRoot_invariant
    (fun place m rest stack stack' hscan hagrees hstep => Agrees.step hagrees hplain hscan hstep)
    h (agrees_nil (v := v))
  obtain ⟨hm, -⟩ := hagrees.next hplain hscan
  exact (reports_of_step hscan hm hagrees.shown (step_cases hstep) v).trans hagrees.reports

end Root

/-! ## The whole text -/

/-- What plain text needs in order to show the success marks of a document. -/
structure ShowsMarks (t : List Char) (document : Document) : Prop where
  /-- There are no comments, character data sections or document type declarations. -/
  noBang : ¬ ['<', '!'] <:+: t
  /-- There are no references. -/
  noReference : '&' ∉ t
  /-- There are no instructions but XML declarations. -/
  declaration : ∀ before after, t = before ++ '<' :: '?' :: after →
    ∃ c rest, after = 'x' :: 'm' :: 'l' :: c :: rest ∧ isBlank c = true
  /-- The start tags of the local name `ok` have a word with dots and hyphens as a qualifier if
  they have one, and no closing bracket in a value. -/
  tags : ∀ token ∈ lex document.opening.place, IsPlainTag token.markup

lemma ShowsMarks.isPlainPart {t before s v : List Char} {document : Document}
    (h : ShowsMarks t document) (ht : t = before ++ (s ++ v)) : IsPlainPart s :=
  isPlainPart_of_declarations h.noBang h.declaration ht

/-- In a plain part without references every token is shown, if the start tags are. -/
lemma isPlainMarkup_of_mem_lex {s : List Char} {t : Token} (hs : IsPlainPart s)
    (hreference : '&' ∉ s) (htag : IsPlainTag t.markup) (h : t ∈ lex s) :
    IsPlainMarkup t.markup := by
  obtain ⟨hplace, ⟨f, hf⟩ | hscan⟩ := place_of_mem_lex h
  · rw [hf]
    trivial
  · have hplain := hs.of_suffix hplace
    have hreference : '&' ∉ t.place := by
      intro hmem
      exact hreference (hplace.subset hmem)
    generalize hm : t.markup = m at hscan htag
    generalize t.place = place at hscan hplain hreference
    cases scanMarkup_cases hscan with
    | text _ _ _ => trivial
    | reference hs _ => exact absurd (hs ▸ List.mem_cons_self) hreference
    | @comment r _ hs _ => exact absurd ⟨[], '-' :: '-' :: r, hs.symm⟩ hplain.noBang
    | @cdata _ r _ hs _ => exact absurd ⟨[], '[' :: r, hs.symm⟩ hplain.noBang
    | instruction hs hr =>
      exact absurd hr (hplain.noInstruction _ _ (hs ▸ List.suffix_rfl))
    | declaration _ _ => trivial
    | endTag _ _ _ => trivial
    | startTag _ _ _ => exact htag

/-- What stands in front of the root element holds no mark. -/
lemma reportsSuccess_of_isDocument {allowed : List Char → Prop} {s : List Char}
    {document : Document} (h : IsDocument allowed s document) (hs : IsPlainPart s)
    (v : List Char) :
    reportsSuccess (s ++ v) = reportsSuccess (document.opening.place ++ v) := by
  obtain ⟨s', hs', hprolog⟩ := h.prolog
  rcases hs' with rfl | hdeclared
  · obtain ⟨w, hw, heq⟩ := spaces_of_isProlog hprolog hs
    rw [heq, List.append_assoc, reportsSuccess_append hw.isBare.1]
  · obtain ⟨inner, b, hwritten, hread⟩ := hdeclared.written
    -- an XML declaration holds no further bracket
    have hopen : '<' ∉ "xml".toList ++ (inner ++ "?>".toList) := by
      have hinner := not_mem_of_readDeclaration hread
      simp [hinner]
    have hsuffix : s' <:+ s := ⟨"<?xml".toList ++ (inner ++ "?>".toList), by rw [hwritten]; simp⟩
    obtain ⟨w, hw, heq⟩ := spaces_of_isProlog hprolog (hs.of_suffix hsuffix)
    have happend : s ++ v
        = '<' :: '?' :: (("xml".toList ++ (inner ++ "?>".toList)) ++ (s' ++ v)) := by
      rw [hwritten]
      simp
    rw [happend, reportsSuccess_bracket (Or.inr rfl) hopen, heq, List.append_assoc,
      reportsSuccess_append hw.isBare.1]

lemma isWithin_iff {root : Element} :
    (∃ e : Element, e.IsWithin root ∧ IsMark e) ↔ IsMark root ∨ HoldsMark root.content := by
  simp only [HoldsMark, Element.IsWithin, or_and_right, exists_or, exists_eq_left]

/-- Where plain text shows the marks of a document, they are found. -/
lemma reportsSuccess_of_showsMarks {t : List Char} {document : Document}
    (hunits : Char.ofNat 0 ∉ (trim t).take 2) (h : ShowsMarks t document)
    (hdocument : Document.ofText (.ofText (trim t)) = .ok document) :
    reportsSuccess t = true ↔ ∃ e : Element, e.IsWithin document.root ∧ IsMark e := by
  obtain ⟨u, v, hu, hv, ht⟩ := exists_blanks_of_trim t
  obtain ⟨mark, hmark, hbody⟩ := exists_mark (trim t)
  have hread : IsDocument (fun _ => True) (behindMark (trim t)) document :=
    isDocument_of_ofBody ((ofText_eq_ofBody hunits).symm.trans hdocument) fun _ _ => trivial
  have ht : t = (u ++ mark) ++ (behindMark (trim t) ++ v) := by
    rw [List.append_assoc, ← List.append_assoc mark, ← hbody]
    exact ht
  have hplain : IsPlainPart (behindMark (trim t)) := h.isPlainPart ht
  -- in front of the root element there is nothing to be found
  have hopen : '<' ∉ u ++ mark := by
    rw [List.mem_append, not_or]
    exact ⟨hu.not_mem (by decide), fun hmem => by cases eq_of_mem_mark hmark '<' hmem⟩
  have hbefore : reportsSuccess t = reportsSuccess (document.opening.place ++ v) := by
    rw [ht, reportsSuccess_append hopen]
    exact reportsSuccess_of_isDocument hread hplain v
  -- nor is there behind it
  have hbehind : reportsSuccess (document.closing.rest ++ v) = false := by
    have hspaces := isSpaces_of_isEpilog hread.epilog (hplain.of_suffix hread.closing_suffix)
    rw [reportsSuccess_append hspaces.isBare.1]
    exact reportsSuccess_eq_false (hv.not_mem (by decide))
  -- and from its start tag to its end both agree
  have htokens : ∀ token ∈ lex document.opening.place, IsPlainMarkup token.markup := by
    intro token htoken
    refine isPlainMarkup_of_mem_lex (hplain.of_suffix hread.suffix) ?_ ?_ htoken
    · intro hmem
      refine h.noReference ?_
      rw [ht]
      exact List.mem_append_right _ (List.mem_append_left _ (hread.suffix.subset hmem))
    · exact h.tags token htoken
  obtain ⟨d, hroot⟩ := hread.content
  have hreports := reports_of_readRoot htokens hroot v
  rw [hbefore, ← hreports, Reports, hbehind, isWithin_iff]
  exact or_iff_left Bool.false_ne_true

/-- **Success is reported exactly where the document holds a mark.** A text that reads as a reply is
a document. Where the text does not stand for units of sixteen bits and plain text shows the
success marks, success is reported if and only if an element `ok` without children and with blank
text or none stands in the document, at any depth. -/
theorem ok_of_parse {t : List Char} {r : Reply} (h : (parse t).result = .ok r) :
    ∃ document, Document.ofText (.ofText (trim t)) = .ok document ∧
      (Char.ofNat 0 ∉ (trim t).take 2 → ShowsMarks t document →
        (r.ok = true ↔ ∃ e : Element, e.IsWithin document.root ∧ IsMark e)) := by
  rw [result_parse, ofText_eq_ok_iff] at h
  obtain ⟨document, hdocument, -, rfl⟩ := h
  exact ⟨document, hdocument, fun hunits hshows =>
    reportsSuccess_of_showsMarks hunits hshows hdocument⟩

/-- A reply with a declaration and a success mark of a qualified name. -/
def replyWithMark : List Char :=
  "<?xml version='1.0'?><rpc-reply><n:ok xmlns:n='u' >\n</n:ok></rpc-reply>".toList

theorem ok_of_replyWithMark :
    ∃ r document, (parse replyWithMark).result = .ok r ∧
      Document.ofText (.ofText (trim replyWithMark)) = .ok document ∧
      Char.ofNat 0 ∉ (trim replyWithMark).take 2 ∧ ShowsMarks replyWithMark document ∧
      r.ok = true ∧ ∃ e : Element, e.IsWithin document.root ∧ IsMark e := by
  have hdocument : (Document.ofText (.ofText (trim replyWithMark))).toOption.map
      (fun document : Document => (document.root.name.base,
        decide (∀ token ∈ lex document.opening.place, IsPlainTag token.markup)))
      = some (rootName, true) := by decide +kernel
  obtain ⟨document, hdocument, hparts⟩ := exists_document_of_map hdocument
  obtain ⟨hname, htags⟩ : _ ∧ _ := by simpa only [Prod.mk.injEq] using hparts
  have hparse := (result_parse replyWithMark).trans
    (ofText_eq_ok_iff.2 ⟨document, hdocument, hname, rfl⟩)
  have hunits : Char.ofNat 0 ∉ (trim replyWithMark).take 2 := by decide +kernel
  have hshows : ShowsMarks replyWithMark document := {
    noBang := by decide +kernel
    noReference := by decide +kernel
    declaration := fun before after ht => by
      cases before with
      | nil => exact ⟨' ', _, (List.cons.inj (List.cons.inj ht).2).2.symm, by decide⟩
      | cons c before =>
        have hnone : ¬ ['<', '?'] <:+: replyWithMark.tail := by decide +kernel
        exact absurd ⟨before, after, by rw [ht]; simp⟩ hnone
    tags := of_decide_eq_true htags }
  have hok : reportsSuccess replyWithMark = true := by decide +kernel
  obtain ⟨document', hdocument', hiff⟩ := ok_of_parse hparse
  obtain rfl : document = document' := Except.ok.inj (hdocument.symm.trans hdocument')
  exact ⟨_, document, hparse, hdocument, hunits, hshows, hok, (hiff hunits hshows).1 hok⟩

/-- A reply with a success mark in units of sixteen bits. -/
def wideMark : List Char := inUnits "<rpc-reply><ok/></rpc-reply>".toList

/-- Where a text stands for units of sixteen bits, it does not show the marks that are read. -/
theorem ok_of_wideMark :
    ∃ r document, (parse wideMark).result = .ok r ∧
      Document.ofText (.ofText (trim wideMark)) = .ok document ∧
      ShowsMarks wideMark document ∧ (∃ e : Element, e.IsWithin document.root ∧ IsMark e) ∧
      r.ok = false := by
  have hdocument : (Document.ofText (.ofText (trim wideMark))).toOption.map
      (fun document : Document => (document.root.name.base,
        decide (∀ token ∈ lex document.opening.place, IsPlainTag token.markup),
        document.root.children.any fun (child, _) =>
          child.name.base = okName ∧ child.children.isEmpty ∧ child.text = []))
      = some (rootName, true, true) := by decide +kernel
  obtain ⟨document, hdocument, hparts⟩ := exists_document_of_map hdocument
  obtain ⟨hname, htags, hchildren⟩ : _ ∧ _ ∧ _ := by simpa only [Prod.mk.injEq] using hparts
  have hparse := (result_parse wideMark).trans
    (ofText_eq_ok_iff.2 ⟨document, hdocument, hname, rfl⟩)
  have hdeclaration : ¬ ['<', '?'] <:+: wideMark := by decide +kernel
  have hshows : ShowsMarks wideMark document := {
    noBang := by decide +kernel
    noReference := by decide +kernel
    declaration := fun before after ht =>
      absurd ⟨before, after, by rw [ht]; simp⟩ hdeclaration
    tags := of_decide_eq_true htags }
  obtain ⟨⟨e, tail⟩, hmem, hchild⟩ := List.any_eq_true.1 hchildren
  obtain ⟨hbase, hempty, htext⟩ := of_decide_eq_true hchild
  have hmark : IsMark e := ⟨hbase, List.isEmpty_iff.1 hempty, by
    rw [htext]
    intro c hc
    exact absurd hc List.not_mem_nil⟩
  have hok : reportsSuccess wideMark = false := by decide +kernel
  exact ⟨_, document, hparse, hdocument, hshows,
    ⟨e, Element.isWithin_of_mem_children hmem, hmark⟩, hok⟩

end Netconf.Reply
