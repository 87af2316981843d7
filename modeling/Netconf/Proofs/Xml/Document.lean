import Netconf.Proofs.Xml.Content
import Netconf.Proofs.Xml.Prolog

/-!
# Documents and the text they were read from

A text that is read as a document is a declaration or none, a prolog, the root element and an
epilog (`IsDocument`, `isDocument_of_ofBody`). The root element is a tag of an empty element or is
enclosed by a start tag and an end tag of the same name, whatever stands between them.
-/

namespace Netconf.Xml

open Netconf.Outcome

section Body

variable [Encoding]

/-! ## The root element -/

/-- A root element begins with a start tag. -/
lemma startTag_of_scanMarkup {s r rest : List Char} {c : Char} {m : Markup} (hs : s = '<' :: c :: r)
    (hc : c ∉ ['!', '?', '/']) (h : scanMarkup s = .ok (m, rest)) : ∃ tag, m = .startTag tag := by
  have hcons : ∀ {c' r'}, s = '<' :: c' :: r' → c' ∉ ['!', '?', '/'] := by
    intro c' r' hs'
    rw [hs, List.cons.injEq, List.cons.injEq] at hs'
    rwa [← hs'.2.1]
  cases scanMarkup_cases h with
  | @text w _ hs' hne hw =>
    obtain ⟨d, w, rfl⟩ := List.exists_cons_of_ne_nil hne
    rw [hs, List.cons_append, List.cons.injEq] at hs'
    exact absurd (hs'.1 ▸ List.mem_cons_self) hw
  | reference hs' _ =>
    rw [hs, List.cons.injEq] at hs'
    exact absurd hs'.1 (by decide)
  | comment hs' _ => exact absurd (by decide) (hcons hs')
  | cdata hs' _ => exact absurd (by decide) (hcons hs')
  | instruction hs' _ => exact absurd (by decide) (hcons hs')
  | declaration hs' _ => exact absurd (by decide) (hcons hs')
  | endTag hs' _ _ => exact absurd (by decide) (hcons hs')
  | startTag _ _ _ => exact ⟨_, rfl⟩

/-- How the root element ends: with its start tag if that is the tag of an empty element, else with
an end tag of the same name somewhere behind. -/
inductive IsRootEnd (tag : RawTag) (opening closing : Token) : Prop where
  | empty (hempty : tag.isEmpty = true) (heq : closing = opening)
  | endTag (hempty : tag.isEmpty = false) (hplace : closing.place <:+ opening.rest)
    (hscan : scanMarkup closing.place = .ok (.endTag tag.name, closing.rest))

/-- The root element that is read has the name of its start tag, and ends where it should. -/
lemma isRootEnd_of_readRoot {d : Dtd} {s rest : List Char} {tag : RawTag} {root : Element}
    {closing : Token} (hscan : scanMarkup s = .ok (.startTag tag, rest))
    (h : readRoot (documentStep d) (lex s) [] = .ok (root, closing)) :
    root.name.base = (splitQName tag.name).2 ∧
      IsRootEnd tag ⟨.startTag tag, s, rest⟩ closing := by
  rw [lex_of_scanMarkup hscan, readRoot] at h
  split at h
  · cases h
  · next root' hstep =>
    cases h
    have hstep := step_cases hstep
    generalize hp : Progress.complete root = p at hstep
    cases hstep with
    | emptyTag hempty hr =>
      cases hp
      exact ⟨base_of_resolveTag hr, .empty hempty rfl⟩
    | startTag hempty hr => cases hp
  · next stack hstep =>
    have hstep := step_cases hstep
    generalize hp : Progress.inside stack = p at hstep
    cases hstep with
    | emptyTag hempty hr => cases hp
    | @startTag _ resolved scope hempty hr =>
      cases hp
      -- behind the start tag its element is the outermost one that is open
      have hkeep : ∀ t m t' (stack stack' : Stack), scanMarkup t = .ok (m, t') →
          t <:+ rest ∧ stack.tags.getLast? = some (tag.name, resolved) →
          documentStep d ⟨m, t, t'⟩ stack = .ok (.inside stack') →
          t' <:+ rest ∧ stack'.tags.getLast? = some (tag.name, resolved) := by
        intro t m t' stack stack' hm hP hinside
        refine ⟨(suffix_of_scanMarkup hm).trans hP.1, ?_⟩
        rcases closes_of_step hinside hP.2 with ⟨stack'', heq, houter⟩ | ⟨root, heq, -⟩
        · cases heq
          exact houter
        · cases heq
      obtain ⟨stack', ⟨hplace, houter⟩, hclosing, hcomplete⟩ := readRoot_invariant
        (P := fun t stack => t <:+ rest ∧ stack.tags.getLast? = some (tag.name, resolved))
        hkeep h ⟨List.suffix_rfl, rfl⟩
      rcases closes_of_step hcomplete houter with ⟨stack'', heq, -⟩ | ⟨root', heq, htag, hm⟩
      · cases heq
      · cases heq
        rw [hm] at hclosing
        refine ⟨?_, .endTag hempty hplace hclosing⟩
        rw [Element.name, htag]
        exact base_of_resolveTag hr

/-! ## The whole text -/

/-- What a document was read from: the text around the root element, the start tag of the root and
the end of the root. The document type declaration, as far as it is written up to its closing
bracket, is as `allowed` has it. -/
structure IsDocument (allowed : List Char → Prop) (s : List Char) (document : Document) :
    Prop where
  prolog : ∃ s', (s' = s ∨ IsDeclared s s') ∧ IsProlog allowed document.opening.place s'
  root : ∃ tag, document.opening.markup = .startTag tag ∧
    scanMarkup document.opening.place = .ok (.startTag tag, document.opening.rest) ∧
    document.root.name.base = (splitQName tag.name).2 ∧
    IsRootEnd tag document.opening document.closing
  content : ∃ d, readRoot (documentStep d) (lex document.opening.place) [] =
    .ok (document.root, document.closing)
  epilog : IsEpilog document.closing.rest

/-- The text from the root element on ends the whole text. -/
lemma IsDocument.suffix {allowed : List Char → Prop} {s : List Char} {document : Document}
    (h : IsDocument allowed s document) : document.opening.place <:+ s := by
  obtain ⟨s', hs', hprolog⟩ := h.prolog
  rcases hs' with rfl | hdeclared
  · exact hprolog.suffix
  · obtain ⟨inner, _, hwritten, -⟩ := hdeclared.written
    exact hprolog.suffix.trans
      ⟨"<?xml".toList ++ (inner ++ ['?', '>']), by rw [hwritten]; simp⟩

/-- So does the text behind the root element. -/
lemma IsDocument.closing_suffix {allowed : List Char → Prop} {s : List Char} {document : Document}
    (h : IsDocument allowed s document) : document.closing.rest <:+ s := by
  obtain ⟨tag, -, hscan, -, hend⟩ := h.root
  have hrest : document.opening.rest <:+ s := (suffix_of_scanMarkup hscan).trans h.suffix
  cases hend with
  | empty _ heq => rwa [heq]
  | endTag _ hplace hclosing => exact (suffix_of_scanMarkup hclosing).trans (hplace.trans hrest)

/-- The place of the root element is that of its start tag. -/
lemma eq_of_ofTokens {d : Dtd} {s : List Char} {document : Document}
    (h : Document.ofTokens d (lex s) = .ok document) :
    document.opening.place = s ∧
      scanMarkup s = .ok (document.opening.markup, document.opening.rest) ∧
      readRoot (documentStep d) (lex s) [] = .ok (document.root, document.closing) := by
  cases s using lex_induction with
  | ended =>
    rw [lex] at h
    cases h
  | broken s f hlex =>
    rw [hlex] at h
    cases h
  | token s m rest hscan _ =>
    rw [lex_of_scanMarkup hscan] at h ⊢
    obtain ⟨⟨root, closing⟩, hroot, rfl⟩ := map_eq_ok_iff.1 h
    exact ⟨rfl, hscan, hroot⟩

theorem isDocument_of_ofBody {allowed : List Char → Prop} {s : List Char} {document : Document}
    (h : Document.ofBody s = .ok document)
    (hallowed : ∀ w, writtenDoctype? s = some w → allowed w) :
    IsDocument allowed s document := by
  obtain ⟨⟨d, fromRoot⟩, hprolog, htail⟩ := bind_eq_ok_iff.1 h
  obtain ⟨document', htokens, htail⟩ := bind_eq_ok_iff.1 htail
  split at htail
  · next hepilog =>
    cases htail
    obtain ⟨hplace, hscan, hroot⟩ := eq_of_ofTokens htokens
    obtain ⟨s', hs', hbefore⟩ := isProlog_of_readProlog hprolog hallowed
    subst hplace
    obtain ⟨c, r, hstart, hc⟩ := hbefore.root_start
    obtain ⟨tag, hm⟩ := startTag_of_scanMarkup hstart hc hscan
    rw [hm] at hscan
    have hopening : document.opening = ⟨.startTag tag, document.opening.place,
        document.opening.rest⟩ := by rw [← hm]
    obtain ⟨hbase, hend⟩ := isRootEnd_of_readRoot hscan hroot
    exact {
      prolog := ⟨s', hs', hbefore⟩
      root := ⟨tag, hm, hscan, hbase, hopening ▸ hend⟩
      content := ⟨d, hroot⟩
      epilog := isEpilog_of_epilogFault? hepilog }
  · cases htail

end Body

/-- A text without the mark at its start. -/
def behindMark (s : List Char) : List Char :=
  if s.head? = some byteOrderMark then s.tail else s

lemma exists_mark (s : List Char) : ∃ mark, (mark = [] ∨ mark = [byteOrderMark]) ∧
    s = mark ++ behindMark s := by
  unfold behindMark
  split
  · next hmark =>
    obtain ⟨t, rfl⟩ := List.head?_eq_some_iff.1 hmark
    exact ⟨[byteOrderMark], Or.inr rfl, rfl⟩
  · exact ⟨[], Or.inl rfl, rfl⟩

lemma eq_of_mem_mark {mark : List Char} (h : mark = [] ∨ mark = [byteOrderMark]) :
    ∀ c ∈ mark, c = byteOrderMark := by
  rintro c hc
  rcases h with rfl | rfl
  · cases hc
  · exact List.mem_singleton.1 hc

/-- A text that stands for itself is read as a document behind its mark. -/
lemma ofText_eq_ofBody {s : List Char} (hunits : Char.ofNat 0 ∉ s.take 2) :
    Document.ofText (.ofText s) = Document.ofBody (behindMark s) := by
  have hcharacters : Document.ofCharacters s = Document.ofBody (behindMark s) := by
    cases s with
    | nil => rfl
    | cons c s => simp only [Document.ofCharacters, behindMark, List.head?_cons,
        Option.some.injEq, List.tail_cons]
  rw [DocumentText.ofText_of_not_mem hunits, Document.ofText, hcharacters]
  cases Document.ofBody (behindMark s) <;> rfl

/-- Whatever a text stands for, a document was read from some text, in some encoding. -/
lemma exists_body_of_ofText {t : DocumentText} {document : Document}
    (h : Document.ofText t = .ok document) :
    ∃ (encoding : Encoding) (s : List Char), encoding = t.encoding ∧
      Document.ofBody s = .ok document := by
  unfold Document.ofText at h
  split at h
  · next document' hcharacters =>
    split at h
    · cases h
    · cases h
      cases hcs : t.characters with
      | nil =>
        rw [hcs] at hcharacters
        exact ⟨t.encoding, [], rfl, hcharacters⟩
      | cons c s =>
        rw [hcs] at hcharacters
        exact ⟨t.encoding, _, rfl, hcharacters⟩
  · split at h <;> cases h

lemma exists_isDocument_of_ofText {t : DocumentText} {document : Document}
    (h : Document.ofText t = .ok document) :
    ∃ (_ : Encoding) (s : List Char), IsDocument (fun _ => True) s document := by
  obtain ⟨encoding, s, -, hbody⟩ := exists_body_of_ofText h
  exact ⟨encoding, s, isDocument_of_ofBody hbody fun _ _ => trivial⟩

/-- A document that is read is found among the answers to questions about it. -/
lemma exists_document_of_map {α : Type} {s : List Char} {f : Document → α} {a : α}
    (h : (Document.ofText (.ofText s)).toOption.map f = some a) :
    ∃ document, Document.ofText (.ofText s) = .ok document ∧ f document = a := by
  cases hdocument : Document.ofText (.ofText s) with
  | error e =>
    rw [hdocument] at h
    cases h
  | ok document =>
    rw [hdocument] at h
    exact ⟨document, rfl, Option.some.inj h⟩

/-! ## The end of the text -/

/-- Whether a text ends with markup, white space behind it, but not with a character data
section. -/
def EndsMarkup (s : List Char) : Prop :=
  ∃ before c w, s = before ++ c :: '>' :: w ∧ c ≠ ']' ∧ IsSpaces w

lemma EndsMarkup.of_suffix {s t : List Char} (h : EndsMarkup s) (hs : s <:+ t) :
    EndsMarkup t := by
  obtain ⟨before, c, w, rfl, hc, hw⟩ := h
  obtain ⟨u, rfl⟩ := hs
  exact ⟨u ++ before, c, w, by rw [List.append_assoc], hc, hw⟩

/-- Markup with nothing but white space and asides behind it. -/
lemma endsMarkup_append (before : List Char) {s : List Char} {c : Char} (hc : c ≠ ']')
    (h : IsSpaces s ∨ EndsMarkup s) : EndsMarkup (before ++ c :: '>' :: s) := by
  rcases h with hs | hs
  · exact ⟨before, c, s, rfl, hc, hs⟩
  · exact hs.of_suffix ⟨before ++ [c, '>'], by simp⟩

variable [Encoding]

lemma IsEpilog.ends {s : List Char} (h : IsEpilog s) : IsSpaces s ∨ EndsMarkup s := by
  induction h with
  | ended => exact Or.inl fun c hc => absurd hc List.not_mem_nil
  | @space w s hw _ ih =>
    rcases ih with hs | hs
    · exact Or.inl fun c hc => (List.mem_append.1 hc).elim (hw c) (hs c)
    · exact Or.inr (hs.of_suffix (List.suffix_append w s))
  | @comment r s hr _ ih =>
    obtain ⟨w, rfl⟩ := eq_of_scanComment hr
    have := endsMarkup_append ('<' :: '!' :: '-' :: '-' :: (w ++ ['-'])) (c := '-')
      (by decide) ih
    exact Or.inr (by simpa using this)
  | @instruction r s hr _ ih =>
    obtain ⟨w, rfl⟩ := exists_append_of_scanInstruction hr
    have := endsMarkup_append ('<' :: '?' :: w) (c := '?') (by decide) ih
    exact Or.inr (by simpa using this)

/-- The tag that ends a root element ends with a bracket. -/
lemma IsRootEnd.endsMarkup {tag : RawTag} {opening closing : Token}
    (hopening : scanMarkup opening.place = .ok (.startTag tag, opening.rest))
    (h : IsRootEnd tag opening closing) (hrest : IsSpaces closing.rest ∨ EndsMarkup closing.rest) :
    EndsMarkup closing.place := by
  cases h with
  | empty hempty heq =>
    obtain ⟨-, w, -, hplace⟩ := eq_of_scanMarkup_startTag hopening
    rw [heq] at hrest ⊢
    rw [hplace, hempty]
    have := endsMarkup_append ('<' :: (tag.name ++ w)) (c := '/') (by decide) hrest
    simpa [tagEnd] using this
  | endTag hempty hplace hscan =>
    obtain ⟨hname, w, hw, hs⟩ := eq_of_scanMarkup_endTag hscan
    have hne' : tag.name ++ w ≠ [] := List.append_ne_nil_of_left_ne_nil hname.ne_nil w
    -- the last character in front of the bracket belongs to the name or the white space
    have hlast : (tag.name ++ w).getLast hne' ≠ ']' := by
      rcases List.mem_append.1 (List.getLast_mem hne') with hmem | hmem
      · exact ne_of_class (hname.isQNameChar _ hmem) rfl
      · exact ne_of_class (hw _ hmem) (by decide)
    have := endsMarkup_append ('<' :: '/' :: (tag.name ++ w).dropLast) hlast hrest
    rw [List.cons_append, List.cons_append, List.append_cons, List.dropLast_concat_getLast,
      List.append_assoc] at this
    rwa [hs]

/-- A document never ends like a character data section. -/
theorem IsDocument.endsMarkup {allowed : List Char → Prop} {s : List Char} {document : Document}
    (h : IsDocument allowed s document) : EndsMarkup s := by
  obtain ⟨tag, -, hscan, -, hend⟩ := h.root
  have hclosing := hend.endsMarkup hscan h.epilog.ends
  refine EndsMarkup.of_suffix ?_ h.suffix
  cases hend with
  | empty _ heq => rwa [heq] at hclosing
  | endTag _ hplace _ => exact hclosing.of_suffix (hplace.trans (suffix_of_scanMarkup hscan))

end Netconf.Xml
