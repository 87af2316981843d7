import Netconf.Proofs.Xml.Declaration
import Netconf.Proofs.Xml.Document
import Netconf.Proofs.Xml.Grammar

/-!
# Documents without declarations

A text that is an element and white space around it, behind an XML declaration or none, is read as a
document whose root is that element (`ofBody_of_isElement`), and a document that nothing is declared
for was written in that way (`isElement_of_ofBody`).
-/

namespace Netconf.Xml

open Netconf.Outcome

/-! ## Elements -/

/-- Whether a text is an element of this meaning in a scope. -/
inductive IsElement (d : Dtd) (σ : Scope) : List Char → Element → Prop where
  | empty {σ' : Scope} {w : List Char} {t : RawTag} {tag : Tag} (hw : IsTag d σ w t tag σ')
    (ht : t.isEmpty = true) : IsElement d σ w ⟨tag, []⟩
  | enclosed {σ' : Scope} {w v sp : List Char} {t : RawTag} {tag : Tag} {inner : List Node}
    (hw : IsTag d σ w t tag σ') (ht : t.isEmpty = false) (hv : IsContent d σ' v inner)
    (hsp : IsSpaces sp) :
    IsElement d σ (w ++ (v ++ '<' :: '/' :: (t.name ++ (sp ++ ['>'])))) ⟨tag, inner⟩

variable {d : Dtd}

/-- An element in front of other content. -/
lemma IsElement.content {σ : Scope} {w u : List Char} {e : Element} {items : List Node}
    (h : IsElement d σ w e) (hu : IsContent d σ u items) :
    IsContent d σ (w ++ u) (.element e.tag e.content :: items) := by
  cases h with
  | empty hw ht => exact .emptyTag hw ht hu
  | enclosed hw ht hv hsp => simpa using IsContent.element hw ht hv hsp hu

/-- An element begins with the name of its start tag. -/
lemma IsTag.starts {σ σ' : Scope} {w : List Char} {t : RawTag} {tag : Tag}
    (h : IsTag d σ w t tag σ') : ∃ c r, w = '<' :: c :: r ∧ isNameStart c = true := by
  obtain ⟨m, hscan, hview⟩ := h.scan []
  cases m with
  | startTag t' =>
    obtain ⟨⟨c, r, hname, hc, -⟩, v, -, hw⟩ := eq_of_scanMarkup_startTag hscan
    rw [List.append_nil, hname] at hw
    exact ⟨c, _, hw, hc⟩
  | _ => cases hview

lemma IsElement.starts {σ : Scope} {w : List Char} {e : Element} (h : IsElement d σ w e) :
    ∃ c r, w = '<' :: c :: r ∧ isNameStart c = true := by
  cases h with
  | empty hw _ => exact hw.starts
  | enclosed hw _ _ _ =>
    obtain ⟨c, r, rfl, hc⟩ := hw.starts
    exact ⟨c, _, rfl, hc⟩

/-- An element is read as a root element, whatever stands behind it. -/
lemma ofTokens_of_isElement {w : List Char} {e : Element} (h : IsElement d Scope.initial w e)
    (rest : List Char) : ∃ document, Document.ofTokens d (lex (w ++ rest)) = .ok document ∧
      document.root = e ∧ document.closing.rest = rest := by
  -- with nothing open, an element is complete behind its last token
  suffices hread : ∃ closing, readFrom d (w ++ rest) [] = .ok (e, closing) ∧
      closing.rest = rest by
    obtain ⟨closing, hread, hrest⟩ := hread
    obtain ⟨m, r, p, hscan, -, -⟩ := exists_token_of_readFrom hread
    refine ⟨⟨e, ⟨m, w ++ rest, r⟩, closing⟩, ?_, rfl, hrest⟩
    rw [readFrom, lex_of_scanMarkup hscan] at hread
    rw [lex_of_scanMarkup hscan, Document.ofTokens, hread]
    rfl
  cases h with
  | empty hw ht =>
    obtain ⟨t', hscan, hstep⟩ := hw.step rest [] rfl
    rw [if_pos ht] at hstep
    exact ⟨_, readFrom_of_complete hscan hstep, rfl⟩
  | @enclosed σ' w v sp t tag inner hw ht hv hsp =>
    obtain ⟨t', hscan, hstep⟩ :=
      hw.step (v ++ '<' :: '/' :: (t.name ++ (sp ++ '>' :: rest))) [] rfl
    rw [if_neg (Bool.eq_false_iff.1 ht)] at hstep
    have htext : w ++ (v ++ '<' :: '/' :: (t.name ++ (sp ++ ['>']))) ++ rest =
        w ++ (v ++ '<' :: '/' :: (t.name ++ (sp ++ '>' :: rest))) := by simp
    have hinner := reads_of_isContent hv ('/' :: (t.name ++ (sp ++ '>' :: rest)))
      (List.cons_ne_nil ⟨t.name, tag, σ', []⟩ []) rfl
    have hend : documentStep d
        ⟨.endTag t.name, '<' :: '/' :: (t.name ++ (sp ++ '>' :: rest)), rest⟩
        (Stack.add inner.reverse [⟨t.name, tag, σ', []⟩]) = .ok (.complete ⟨tag, inner⟩) := by
      have hreverse : (inner.reverse ++ []).reverse = inner := by simp
      exact (if_pos rfl).trans (by rw [Stack.addElement, hreverse])
    rw [htext, readFrom_of_step hscan hstep, hinner]
    exact ⟨_, readFrom_of_complete (scanMarkup_endTag hw.isTagName hsp rest) hend, rfl⟩

/-- Where no entity is declared, a root element is an element as it is written. -/
lemma isElement_of_ofTokens (hd : d.entities = []) {c : Char} {r : List Char}
    {document : Document} (hc : c ∉ ['!', '?', '/'])
    (h : Document.ofTokens d (lex ('<' :: c :: r)) = .ok document) :
    ∃ w, '<' :: c :: r = w ++ document.closing.rest ∧
      IsElement d Scope.initial w document.root := by
  obtain ⟨-, hscan, hread⟩ := eq_of_ofTokens h
  obtain ⟨t, ht⟩ := startTag_of_scanMarkup rfl hc hscan
  rw [ht] at hscan
  obtain ⟨w, hw, htakes⟩ := takes_of_scanMarkup (Or.inl rfl) hscan
  obtain ⟨m, rest, p, hscan', hstep, hlead⟩ := exists_token_of_readFrom hread
  cases hscan.symm.trans hscan'
  rw [hw]
  cases step_cases hstep with
  | emptyTag hempty hr =>
    have htag : IsTag d Scope.initial ('<' :: w) t.unplaced _ _ :=
      ⟨htakes, resolveTag_of_unplaced t.unplaced_unplaced.symm hr []⟩
    obtain ⟨hroot, hclosing⟩ := Prod.mk.inj hlead
    rw [hroot, hclosing]
    exact ⟨'<' :: w, rfl, .empty htag hempty⟩
  | @startTag _ resolved scope hempty hr =>
    have htag : IsTag d Scope.initial ('<' :: w) t.unplaced resolved scope :=
      ⟨htakes, resolveTag_of_unplaced t.unplaced_unplaced.symm hr []⟩
    obtain ⟨v, inner, sp, rest', hv, hsp, hrest, hlead'⟩ := closes_of_readFrom hd hlead
    obtain ⟨hroot, hclosing⟩ := Prod.mk.inj hlead'
    change document.opening.rest = _ at hrest
    rw [hroot, hclosing, hrest]
    exact ⟨_, by simp, .enclosed htag hempty hv hsp⟩

/-! ## In front of the root element and behind it -/

lemma lexProlog_of_scanLexeme {s rest : List Char} {l : Lexeme}
    (h : scanLexeme s = .ok (l, rest)) :
    lexProlog s = if l = .root then [⟨l, s, rest⟩] else ⟨l, s, rest⟩ :: lexProlog rest := by
  obtain ⟨c, s, rfl⟩ := List.exists_cons_of_ne_nil (l := s) (by rintro rfl; cases h)
  rw [lexProlog]
  split
  · next heq => rw [h] at heq; cases heq
  · next heq =>
    rw [h] at heq
    cases heq
    rfl

/-- The root element begins where a name does. -/
lemma lexProlog_root {c : Char} (hc : isNameStart c = true) (r : List Char) :
    lexProlog ('<' :: c :: r) = [⟨.root, '<' :: c :: r, r⟩] := by
  have hbang : c ≠ '!' := ne_of_class hc (by decide)
  have hmark : c ≠ '?' := ne_of_class hc (by decide)
  have hkind : beginsRoot c = true := by
    unfold isNameStart at hc
    split at hc
    · rw [beginsRoot, isKindChar, hc, Bool.true_or, Bool.true_or]
    · next hlarge =>
      have htable : tableSize ≤ c.toNat := Nat.le_of_not_lt hlarge
      rw [beginsRoot, decide_eq_true htable, Bool.or_true]
  have hangle : scanAngle (c :: r) = .ok (.root, r) := by
    unfold scanAngle
    split
    · next heq => exact absurd (List.cons.inj heq).1 hbang
    · next heq => exact absurd (List.cons.inj heq).1 hbang
    · next heq => exact absurd (List.cons.inj heq).1 hbang
    · next heq => exact absurd (List.cons.inj heq).1 hmark
    · next heq => cases heq
    · next heq =>
      obtain ⟨rfl, rfl⟩ := List.cons.inj heq
      exact if_pos hkind
  exact lexProlog_of_scanLexeme (l := .root) hangle

/-- White space is one lexeme, if there is any. -/
lemma lexProlog_spaces {sp s : List Char} (hsp : IsSpaces sp)
    (hs : ∀ c ∈ s.head?, isSpace c = false) :
    lexProlog (sp ++ s) = lexProlog s ∨
      lexProlog (sp ++ s) = ⟨.space, sp ++ s, s⟩ :: lexProlog s := by
  cases sp with
  | nil => exact Or.inl rfl
  | cons c sp =>
    right
    have hscan : scanLexeme (c :: (sp ++ s)) = .ok (.space, s) := by
      rw [scanLexeme, if_pos (hsp c List.mem_cons_self),
        skipSpace_append (fun d hd => hsp d (List.mem_cons_of_mem c hd)) hs]
    rw [List.cons_append, lexProlog_of_scanLexeme hscan, if_neg (by decide)]

/-- Whether a text in front of white space and a root element is an XML declaration or nothing, and
what it says on whether the document stands alone. -/
def IsOpening (s : List Char) (isStandalone : Bool) : Prop :=
  ∀ sp c r, IsSpaces sp → isNameStart c = true →
    readOpening (lexProlog (s ++ (sp ++ '<' :: c :: r))) =
      .ok (isStandalone, lexProlog (sp ++ '<' :: c :: r))

lemma isOpening_nil : IsOpening [] false := by
  intro sp c r hsp hc
  rw [List.nil_append]
  rcases lexProlog_spaces (s := '<' :: c :: r) hsp (by rintro d ⟨⟩; decide) with h | h
  · rw [h, lexProlog_root hc]
    rfl
  · rw [h]
    rfl

/-- A declaration is read the same whatever follows it, and holds no further opening bracket. -/
lemma exists_isOpening {s rest : List Char} (h : IsDeclared s rest) :
    ∃ q b, s = '<' :: '?' :: (q ++ '>' :: rest) ∧ '<' ∉ q ∧
      IsOpening ('<' :: '?' :: (q ++ ['>'])) b := by
  obtain ⟨inner, b, hwritten, hread⟩ := h.written
  obtain ⟨r, hr, hscan⟩ := h.scanned
  obtain ⟨v, rfl, hv⟩ := takes_of_scanInstruction hscan
  have htext : '<' :: '?' :: v = "<?xml".toList ++ inner ++ ['?', '>'] := by
    have hs : '<' :: '?' :: v ++ rest = "<?xml".toList ++ inner ++ ['?', '>'] ++ rest := by
      rw [List.cons_append, List.cons_append, ← hr, hwritten]
      simp
    exact List.append_cancel_right hs
  have hinner : '<' ∉ inner := not_mem_of_readDeclaration hread
  refine ⟨"xml".toList ++ (inner ++ ['?']), b, by rw [hwritten]; simp, by simp [hinner], ?_⟩
  have hclosed : '<' :: '?' :: ("xml".toList ++ (inner ++ ['?']) ++ ['>']) = '<' :: '?' :: v := by
    rw [htext]
    simp
  rw [hclosed]
  intro sp c r hsp hc
  generalize sp ++ '<' :: c :: r = body
  have hlexeme : scanLexeme ('<' :: '?' :: v ++ body) = .ok (.declaration, body) := by
    obtain ⟨b', hb', rfl⟩ := hv body
    change Except.map _ (scanInstruction (v ++ body)) = _
    rw [hb']
    rfl
  have htake : ('<' :: '?' :: v ++ body).take (('<' :: '?' :: v ++ body).length - body.length - 2) =
      "<?xml".toList ++ inner := by
    have hlen : ('<' :: '?' :: v ++ body).length - body.length - 2 =
        ("<?xml".toList ++ inner).length := by
      rw [htext]
      simp only [List.length_append, List.length_cons, List.length_nil]
      omega
    rw [hlen, htext, List.append_assoc, List.take_left]
  rw [lexProlog_of_scanLexeme hlexeme, if_neg (by decide), readOpening, if_pos rfl]
  dsimp only
  rw [htake, List.drop_left' (by decide : "<?xml".toList.length = 5), hread]

/-- Nothing is declared by an XML declaration and white space. -/
lemma readProlog_of_isOpening {s sp r : List Char} {b : Bool} {c : Char} (hs : IsOpening s b)
    (hsp : IsSpaces sp) (hc : isNameStart c = true) :
    readProlog (s ++ (sp ++ '<' :: c :: r)) = .ok (Dtd.empty b, '<' :: c :: r) := by
  have hspaces : withoutSpace (lexProlog (sp ++ '<' :: c :: r)) = [⟨.root, '<' :: c :: r, r⟩] := by
    rcases lexProlog_spaces (s := '<' :: c :: r) hsp (by rintro d ⟨⟩; decide) with h | h
    · rw [h, lexProlog_root hc]
      rfl
    · rw [h, lexProlog_root hc]
      rfl
  rw [readProlog, hs sp c r hsp hc, ok_bind]
  change readMisc (Dtd.empty b) true (withoutSpace (lexProlog (sp ++ '<' :: c :: r))) = _
  rw [hspaces, readMisc]

/-- White space may stand behind the root element. -/
lemma epilogFault?_of_isSpaces {sp : List Char} (hsp : IsSpaces sp) : epilogFault? sp = none := by
  have hspaces := lexProlog_spaces (s := []) hsp fun _ hd => by cases hd
  rw [List.append_nil] at hspaces
  have hnil : lexProlog [] = [] := by rw [lexProlog]
  rw [epilogFault?]
  rcases hspaces with h | h
  · rw [h, hnil]
    rfl
  · rw [h, hnil]
    rfl

/-! ## Whole documents -/

/-- **An element is a document**, with white space around it and an XML declaration in front. -/
theorem ofBody_of_isElement {s sp w sp' : List Char} {b : Bool} {e : Element} (hs : IsOpening s b)
    (hsp : IsSpaces sp) (hw : IsElement (Dtd.empty b) Scope.initial w e) (hsp' : IsSpaces sp') :
    ∃ document, Document.ofBody (s ++ (sp ++ (w ++ sp'))) = .ok document ∧
      document.root = e := by
  obtain ⟨document, htokens, hroot, hrest⟩ := ofTokens_of_isElement hw sp'
  obtain ⟨c, r, rfl, hc⟩ := hw.starts
  refine ⟨document, ?_, hroot⟩
  rw [Document.ofBody, List.cons_append, List.cons_append, readProlog_of_isOpening hs hsp hc,
    ok_bind]
  rw [List.cons_append, List.cons_append] at htokens
  dsimp only
  rw [htokens, ok_bind, hrest, epilogFault?_of_isSpaces hsp']
  rfl

/-- **A document without declarations is an element**, as it is written, and an epilog. -/
theorem isElement_of_ofBody {s sp r : List Char} {b : Bool} {c : Char} {document : Document}
    (hs : IsOpening s b) (hsp : IsSpaces sp) (hc : isNameStart c = true)
    (h : Document.ofBody (s ++ (sp ++ '<' :: c :: r)) = .ok document) :
    ∃ w, '<' :: c :: r = w ++ document.closing.rest ∧
      IsElement (Dtd.empty b) Scope.initial w document.root ∧ IsEpilog document.closing.rest := by
  rw [Document.ofBody, readProlog_of_isOpening hs hsp hc, ok_bind] at h
  obtain ⟨document', htokens, htail⟩ := bind_eq_ok_iff.1 h
  split at htail
  · next hepilog =>
    cases htail
    have hc' : c ∉ ['!', '?', '/'] := by
      rintro hmem
      rcases List.mem_cons.1 hmem with rfl | hmem
      · cases hc
      rcases List.mem_cons.1 hmem with rfl | hmem
      · cases hc
      · rw [List.mem_singleton.1 hmem] at hc
        cases hc
    obtain ⟨w, hw, helement⟩ := isElement_of_ofTokens rfl hc' htokens
    exact ⟨w, hw, helement, isEpilog_of_epilogFault? hepilog⟩
  · cases htail

/-- A text that begins with its root element stands for itself as a document. -/
lemma ofText_bracket {c : Char} (hc : isNameStart c = true) (r : List Char) :
    Document.ofText (.ofText ('<' :: c :: r)) = Document.ofBody ('<' :: c :: r) := by
  have hzero : Char.ofNat 0 ∉ ('<' :: c :: r).take 2 := by
    have hne : c ≠ Char.ofNat 0 := ne_of_class hc (by decide)
    simp [hne.symm]
  have hmark : some '<' ≠ some byteOrderMark := by decide
  rw [ofText_eq_ofBody hzero, behindMark, List.head?_cons, if_neg hmark]

end Netconf.Xml
