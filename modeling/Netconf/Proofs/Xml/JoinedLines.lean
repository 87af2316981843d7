import Netconf.Proofs.Xml.Layout
import Netconf.Proofs.Xml.TextRuns
import Netconf.Proofs.Xml.Tree

/-!
# Joined lines

A document that is laid out on lines is read without its line feeds as the same document, but for
blanks around text (`exists_joinLines_of_ofText`). The content is taken run by run: a tag has no
line feed, and a run of text has none but in the blanks around it.
-/

namespace Netconf.Xml

open Netconf.Text

/-! ## Brackets in documents -/

/-- How a start tag is written. -/
lemma IsTag.brackets {d : Dtd} {σ σ' : Scope} {w : List Char} {t : RawTag} {tag : Tag}
    (h : IsTag d σ w t tag σ') : ∃ q, w = '<' :: (q ++ ['>']) ∧ '<' ∉ q := by
  obtain ⟨m, hscan, hview⟩ := h.scan []
  cases m with
  | startTag t' =>
    obtain ⟨hname, v, hv, hw⟩ := eq_of_scanMarkup_startTag hscan
    rw [List.append_nil, List.append_nil] at hw
    have hopen : '<' ∉ t'.name ++ v := by
      rw [List.mem_append, not_or]
      exact ⟨hname.isBare.1, hv.noOpening⟩
    cases hempty : t'.isEmpty with
    | false =>
      exact ⟨t'.name ++ v, by rw [hw, hempty, List.append_assoc]; rfl, hopen⟩
    | true =>
      refine ⟨t'.name ++ v ++ ['/'], by rw [hw, hempty]; simp [tagEnd], ?_⟩
      simp only [List.mem_append, List.mem_singleton] at hopen ⊢
      rintro (hmem | hmem)
      · exact hopen hmem
      · cases hmem
  | _ => cases hview

section Elements

variable {d : Dtd}

lemma IsTag.not_mem_endTag {σ σ' : Scope} {w sp : List Char} {t : RawTag} {tag : Tag}
    (h : IsTag d σ w t tag σ') (hsp : IsSpaces sp) : '<' ∉ '/' :: (t.name ++ sp) := by
  simp [h.isTagName.isBare.1, hsp.isBare.1]

lemma IsPlainContent.isBracketed {σ : Scope} {w : List Char} {items : List Node}
    (h : IsPlainContent d σ w items) : IsBracketed w := by
  induction h with
  | text _ hopen => exact isBracketed_of_not_mem hopen
  | emptyTag _ hopen hw _ _ ih =>
    obtain ⟨q, rfl, hq⟩ := hw.brackets
    exact (isBracketed_of_not_mem hopen).append ((isBracketed_tag hq).append ih)
  | @element σ σ' g s w v sp u t tag inner more _ hopen hw _ _ hsp _ ihv ihu =>
    obtain ⟨q, rfl, hq⟩ := hw.brackets
    have := (isBracketed_of_not_mem hopen).append ((isBracketed_tag hq).append (ihv.append
      ((isBracketed_tag (hw.not_mem_endTag hsp)).append ihu)))
    simpa using this

/-! ## Content without its line feeds -/

/-- Whether content differs from other content in blanks around text alone. -/
inductive Alike : List Node → List Node → Prop where
  | text {s s' : List Char} (h : trim s = trim s') : Alike (s.map .char) (s'.map .char)
  | element {s s' : List Char} {tag : Tag} {inner inner' more more' : List Node}
    (h : trim s = trim s') (hinner : Alike inner inner') (hmore : Alike more more') :
    Alike (s.map .char ++ .element tag inner :: more)
      (s'.map .char ++ .element tag inner' :: more')

lemma alike_nil : Alike [] [] := .text (rfl : trim [] = trim [])

/-- Whether two children have the same tag and alike content. -/
def AlikeChild (child child' : Element × List Char) : Prop :=
  child.1.tag = child'.1.tag ∧ Alike child.1.content child'.1.content

lemma trim_leadingText {nodes nodes' : List Node} (h : Alike nodes nodes') :
    trim (leadingText nodes) = trim (leadingText nodes') := by
  cases h with
  | text h => rwa [leadingText_chars, leadingText_chars]
  | element h _ _ => rwa [leadingText_chars_append, leadingText_chars_append]

lemma children_of_alike {nodes nodes' : List Node} (h : Alike nodes nodes') :
    List.Forall₂ AlikeChild (childrenWithTails nodes) (childrenWithTails nodes') := by
  induction h with
  | @text s s' h =>
    have hnone (s : List Char) : childrenWithTails (s.map .char) = [] := by
      have := childrenWithTails_chars_append s []
      rwa [List.append_nil] at this
    rw [hnone, hnone]
    exact .nil
  | element _ hinner _ _ ih =>
    rw [childrenWithTails_chars_append, childrenWithTails_chars_append]
    exact .cons ⟨rfl, hinner⟩ ih

section Tags

variable {σ σ' : Scope} {w sp a b : List Char} {t : RawTag} {tag : Tag}

/-- Tags have no line feeds. -/
lemma IsTag.lineFeed (h : IsTag d σ w t tag σ') (hx : IsLaidOut (a ++ (w ++ b))) :
    '\n' ∉ w := by
  obtain ⟨q, rfl, hq⟩ := h.brackets
  have hx : IsLaidOut (a ++ '<' :: (q ++ '>' :: b)) := by simpa using hx
  have hfeed := (hx.tag hq).2
  simp [hfeed]

lemma IsTag.lineFeed_endTag (h : IsTag d σ w t tag σ') (hsp : IsSpaces sp)
    (hx : IsLaidOut (a ++ '<' :: '/' :: (t.name ++ (sp ++ '>' :: b)))) :
    '\n' ∉ t.name ++ sp := by
  have hx : IsLaidOut (a ++ '<' :: ('/' :: (t.name ++ sp) ++ '>' :: b)) := by simpa using hx
  exact fun hmem => (hx.tag (h.not_mem_endTag hsp)).2 (List.mem_cons_of_mem _ hmem)

lemma joinLines_enclosed {n : List Char} (hw : '\n' ∉ w) (hend : '\n' ∉ n ++ sp)
    (v u : List Char) : joinLines (w ++ (v ++ '<' :: '/' :: (n ++ (sp ++ '>' :: u)))) =
      w ++ (joinLines v ++ '<' :: '/' :: (n ++ (sp ++ '>' :: joinLines u))) := by
  have htag : joinLines ('<' :: '/' :: (n ++ sp ++ ['>'])) = '<' :: '/' :: (n ++ sp ++ ['>']) :=
    joinLines_of_not_mem (by simpa using hend)
  have happend : '<' :: '/' :: (n ++ (sp ++ '>' :: u)) =
      '<' :: '/' :: (n ++ sp ++ ['>']) ++ u := by simp
  rw [joinLines_append, joinLines_append, happend, joinLines_append, joinLines_of_not_mem hw, htag]
  simp

end Tags

/-- **Without its line feeds content is read as before** but for blanks around text. -/
theorem IsPlainContent.exists_joinLines {σ : Scope} {w : List Char} {items : List Node}
    (h : IsPlainContent d σ w items) {a b : List Char}
    (hx : IsLaidOut (a ++ '>' :: (w ++ '<' :: b))) :
    ∃ items', IsContent d σ (joinLines w) items' ∧ Alike items items' := by
  -- every run of text stands between two brackets, at the ends of the content as well
  induction h generalizing a b with
  | text hg hopen =>
    obtain ⟨t, ht, htrim⟩ := hg.exists_joinLines (hx.gap hopen)
    exact ⟨_, ht.content d _, .text htrim.symm⟩
  | @emptyTag σ σ' g s w u t tag more hg hopen hw ht _ ih =>
    have hfeed := hw.lineFeed (a := a ++ '>' :: g) (b := u ++ '<' :: b)
      (by simpa using hx)
    obtain ⟨q, rfl, -⟩ := hw.brackets
    have hgap : IsLaidOut (a ++ '>' :: (g ++ '<' :: (q ++ '>' :: (u ++ '<' :: b)))) := by
      simpa using hx
    obtain ⟨s', hs', htrim⟩ := hg.exists_joinLines (hgap.gap hopen)
    obtain ⟨more', hmore', halike⟩ := ih (a := a ++ '>' :: (g ++ '<' :: q))
      (b := b) (by simpa using hx)
    refine ⟨_, ?_, .element htrim.symm alike_nil halike⟩
    rw [joinLines_append, joinLines_append _ u, joinLines_of_not_mem hfeed]
    exact (hs'.content d σ).append (.emptyTag hw ht hmore') fun c hc => by cases hc; rfl
  | @element σ σ' g s w v sp u t tag inner more hg hopen hw ht _ hsp _ ihv ihu =>
    have hfeed := hw.lineFeed (a := a ++ '>' :: g)
      (b := v ++ '<' :: '/' :: (t.name ++ (sp ++ '>' :: (u ++ '<' :: b))))
      (by simpa using hx)
    have hend := hw.lineFeed_endTag hsp (a := a ++ '>' :: (g ++ (w ++ v)))
      (b := u ++ '<' :: b) (by simpa using hx)
    obtain ⟨q, rfl, -⟩ := hw.brackets
    have hgap : IsLaidOut (a ++ '>' :: (g ++ '<' :: (q ++ '>' :: (v ++ '<' :: '/' ::
        (t.name ++ (sp ++ '>' :: (u ++ '<' :: b))))))) := by
      simpa using hx
    obtain ⟨s', hs', htrim⟩ := hg.exists_joinLines (hgap.gap hopen)
    obtain ⟨inner', hinner', halike⟩ := ihv (a := a ++ '>' :: (g ++ '<' :: q))
      (b := '/' :: (t.name ++ (sp ++ '>' :: (u ++ '<' :: b)))) (by simpa using hx)
    obtain ⟨more', hmore', halike'⟩ := ihu (a := a ++ '>' :: (g ++ '<' :: (q ++ '>' ::
      (v ++ '<' :: '/' :: (t.name ++ sp))))) (b := b) (by simpa using hx)
    refine ⟨_, ?_, .element htrim.symm halike halike'⟩
    rw [joinLines_append, joinLines_enclosed hfeed hend]
    exact (hs'.content d σ).append (.element hw ht hinner' hsp hmore') fun c hc => by cases hc; rfl

/-- Without its line feeds an element is read as before but for blanks around text. -/
lemma IsElement.exists_joinLines {σ : Scope} {w : List Char} {e : Element}
    (h : IsElement d σ w e) (hplain : IsPlainPart w) {a b : List Char}
    (hx : IsLaidOut (a ++ (w ++ b))) :
    ∃ e', IsElement d σ (joinLines w) e' ∧ e'.tag = e.tag ∧ Alike e.content e'.content := by
  cases h with
  | empty hw ht =>
    rw [joinLines_of_not_mem (hw.lineFeed hx)]
    exact ⟨_, .empty hw ht, rfl, alike_nil⟩
  | @enclosed σ' w v sp t tag inner hw ht hv hsp =>
    have hfeed := hw.lineFeed (a := a)
      (b := v ++ '<' :: '/' :: (t.name ++ (sp ++ '>' :: b))) (by simpa using hx)
    have hend := hw.lineFeed_endTag hsp (a := a ++ (w ++ v)) (b := b)
      (by simpa using hx)
    have hinner := hv.isPlainContent (hplain.of_suffix (List.suffix_append w _)).of_append
    rw [joinLines_enclosed hfeed hend]
    obtain ⟨q, rfl, -⟩ := hw.brackets
    obtain ⟨inner', hinner', halike⟩ := hinner.exists_joinLines (a := a ++ '<' :: q)
      (b := '/' :: (t.name ++ (sp ++ '>' :: b))) (by simpa using hx)
    exact ⟨⟨tag, inner'⟩, .enclosed hw ht hinner' hsp, rfl, halike⟩

lemma IsElement.isBracketed {σ : Scope} {w : List Char} {e : Element}
    (h : IsElement d σ w e) (hplain : IsPlainPart w) : IsBracketed w := by
  cases h with
  | empty hw _ =>
    obtain ⟨q, rfl, hq⟩ := hw.brackets
    exact isBracketed_tag hq
  | @enclosed σ' w v sp t tag inner hw ht hv hsp =>
    have hinner := hv.isPlainContent (hplain.of_suffix (List.suffix_append w _)).of_append
    obtain ⟨q, rfl, hq⟩ := hw.brackets
    have := (isBracketed_tag hq).append (hinner.isBracketed.append
      (isBracketed_tag (hw.not_mem_endTag hsp)))
    simpa using this

end Elements

/-! ## Documents without their line feeds -/

/-- How a document is written in a plain part. -/
structure IsPlainDocument (opening sp w sp' : List Char) (root : Element) : Prop where
  declared : opening = [] ∨ ∃ q, opening = '<' :: '?' :: (q ++ ['>']) ∧ '<' ∉ q
  spaces : IsSpaces sp
  spaces' : IsSpaces sp'
  root : ∃ b, IsOpening opening b ∧ IsElement (Dtd.empty b) Scope.initial w root

lemma exists_isPlainDocument {s : List Char} {document : Document} (hplain : IsPlainPart s)
    (h : Document.ofBody s = .ok document) : ∃ opening sp w sp',
      s = opening ++ (sp ++ (w ++ sp')) ∧ IsPlainDocument opening sp w sp' document.root := by
  have hread : IsDocument (fun _ => True) s document := isDocument_of_ofBody h fun _ _ => trivial
  obtain ⟨tag, -, hscan, -, -⟩ := hread.root
  obtain ⟨⟨c, n, hname, hc, -⟩, v, -, hplace⟩ := eq_of_scanMarkup_startTag hscan
  rw [hname, List.cons_append] at hplace
  obtain ⟨s', hs', hprolog⟩ := hread.prolog
  obtain ⟨opening, b, rfl, hopening, hdeclared⟩ : ∃ opening b, s = opening ++ s' ∧
      IsOpening opening b ∧
      (opening = [] ∨ ∃ q, opening = '<' :: '?' :: (q ++ ['>']) ∧ '<' ∉ q) := by
    rcases hs' with rfl | hdeclared
    · exact ⟨[], false, rfl, isOpening_nil, Or.inl rfl⟩
    · obtain ⟨q, b, rfl, hq, hopening⟩ := exists_isOpening hdeclared
      exact ⟨'<' :: '?' :: (q ++ ['>']), b, by simp, hopening, Or.inr ⟨q, rfl, hq⟩⟩
  obtain ⟨sp, hsp, rfl⟩ :=
    spaces_of_isProlog hprolog (hplain.of_suffix (List.suffix_append opening s'))
  have hspaces := isSpaces_of_isEpilog hread.epilog (hplain.of_suffix hread.closing_suffix)
  rw [hplace] at h
  obtain ⟨w, hw, helement, -⟩ := isElement_of_ofBody hopening hsp hc h
  exact ⟨opening, sp, w, document.closing.rest, by rw [hplace, hw],
    ⟨hdeclared, hsp, hspaces, b, hopening, helement⟩⟩

/-- A document begins with white space and a bracket, and is not in units of sixteen bits. -/
lemma IsPlainDocument.starts {opening sp w sp' : List Char} {root : Element}
    (h : IsPlainDocument opening sp w sp' root) : ∃ a c r,
      opening ++ (sp ++ (w ++ sp')) = a ++ '<' :: c :: r ∧ IsSpaces a ∧ c ≠ Char.ofNat 0 := by
  rcases h.declared with rfl | ⟨q, rfl, -⟩
  · obtain ⟨b, -, helement⟩ := h.root
    obtain ⟨c, r, rfl, hc⟩ := helement.starts
    exact ⟨sp, c, r ++ sp', rfl, h.spaces, ne_of_class hc (by decide)⟩
  · exact ⟨[], '?', q ++ ['>'] ++ (sp ++ (w ++ sp')), by simp, isSpaces_nil, by decide⟩

lemma not_mem_take {c : Char} {n : ℕ} {s t : List Char} (hs : c ∉ s) (ht : c ∉ t.take n) :
    c ∉ (s ++ t).take n := by
  rw [List.take_append, List.mem_append]
  rintro (hmem | hmem)
  · exact hs (List.mem_of_mem_take hmem)
  · exact ht ((List.take_subset_take_left t (Nat.sub_le n _)) hmem)

/-- Read behind a mark or none, it is the same document. -/
lemma IsPlainDocument.exists_ofText {opening sp w sp' mark : List Char} {root : Element}
    (h : IsPlainDocument opening sp w sp' root) (hmark : mark = [] ∨ mark = [byteOrderMark]) :
    ∃ document, Document.ofText (.ofText (mark ++ (opening ++ (sp ++ (w ++ sp'))))) = .ok document ∧
      document.root = root := by
  obtain ⟨b, hopening, helement⟩ := h.root
  obtain ⟨document, hdocument, hroot⟩ := ofBody_of_isElement hopening h.spaces helement h.spaces'
  obtain ⟨a, c, r, hstarts, ha, hc⟩ := h.starts
  rw [hstarts] at hdocument ⊢
  have hunits : Char.ofNat 0 ∉ (mark ++ (a ++ '<' :: c :: r)).take 2 := by
    refine not_mem_take (fun hmem => ?_) (not_mem_take (fun hmem => ?_) ?_)
    · cases eq_of_mem_mark hmark _ hmem
    · cases ha _ hmem
    · simp [hc.symm]
  have hbehind : behindMark (mark ++ (a ++ '<' :: c :: r)) = a ++ '<' :: c :: r := by
    rcases hmark with rfl | rfl
    · refine if_neg fun hhead => ?_
      cases a with
      | nil => cases hhead
      | cons d a =>
        cases hhead
        cases ha _ List.mem_cons_self
    · exact if_pos rfl
  exact ⟨document, by rw [ofText_eq_ofBody hunits, hbehind, hdocument], hroot⟩

section Documents

variable {x : List Char} {document : Document}

/-- A text that is laid out on lines and read as a document is written as one in a plain part. -/
lemma exists_isPlainDocument_of_ofText (hunits : Char.ofNat 0 ∉ (trim x).take 2)
    (hx : IsLaidOut x) (h : Document.ofText (.ofText (trim x)) = .ok document) :
    ∃ mark opening sp w sp', (mark = [] ∨ mark = [byteOrderMark]) ∧
      trim x = mark ++ (opening ++ (sp ++ (w ++ sp'))) ∧ IsPlainPart w ∧
      IsPlainDocument opening sp w sp' document.root := by
  obtain ⟨u, v, -, -, htrim⟩ := exists_blanks_of_trim x
  obtain ⟨mark, hmark, hbody⟩ := exists_mark (trim x)
  have hparts : x = (u ++ mark) ++ (behindMark (trim x) ++ v) := by
    rw [List.append_assoc, ← List.append_assoc mark, ← hbody]
    exact htrim
  have hplain : IsPlainPart (behindMark (trim x)) :=
    isPlainPart_of_declarations hx.noBang hx.declaration hparts
  rw [ofText_eq_ofBody hunits] at h
  obtain ⟨opening, sp, w, sp', hs, hdocument⟩ := exists_isPlainDocument hplain h
  rw [hs] at hbody hplain
  exact ⟨mark, opening, sp, w, sp', hmark, hbody, (hplain.of_suffix
    ((List.suffix_append sp _).trans (List.suffix_append opening _))).of_append, hdocument⟩

/-- In such a text every opening bracket is closed. -/
lemma isBracketed_of_ofText (hunits : Char.ofNat 0 ∉ (trim x).take 2) (hx : IsLaidOut x)
    (h : Document.ofText (.ofText (trim x)) = .ok document) : IsBracketed x := by
  obtain ⟨u, v, hu, hv, htrim⟩ := exists_blanks_of_trim x
  obtain ⟨mark, opening, sp, w, sp', hmark, hbody, hplain, hdocument⟩ :=
    exists_isPlainDocument_of_ofText hunits hx h
  obtain ⟨_, -, helement⟩ := hdocument.root
  have hbare : '<' ∉ u ∧ '<' ∉ mark ∧ '<' ∉ sp ∧ '<' ∉ sp' ∧ '<' ∉ v :=
    ⟨hu.not_mem (by decide), fun hmem => (by cases eq_of_mem_mark hmark _ hmem),
      hdocument.spaces.isBare.1, hdocument.spaces'.isBare.1, hv.not_mem (by decide)⟩
  have hopening : IsBracketed opening := by
    rcases hdocument.declared with rfl | ⟨q, rfl, hq⟩
    · exact isBracketed_of_not_mem List.not_mem_nil
    · exact isBracketed_tag (q := '?' :: q) (by simp [hq])
  have hdocument : IsBracketed (trim x) := by
    rw [hbody]
    exact (isBracketed_of_not_mem hbare.2.1).append (hopening.append
      ((isBracketed_of_not_mem hbare.2.2.1).append ((helement.isBracketed hplain).append
        (isBracketed_of_not_mem hbare.2.2.2.1))))
  rw [htrim]
  exact (isBracketed_of_not_mem hbare.1).append
    (hdocument.append (isBracketed_of_not_mem hbare.2.2.2.2))

/-- **Without its line feeds a document that is laid out on lines is read as before**, but for
blanks around text. -/
theorem exists_joinLines_of_ofText (hunits : Char.ofNat 0 ∉ (trim x).take 2)
    (hx : IsLaidOut x) (h : Document.ofText (.ofText (trim x)) = .ok document) :
    ∃ document', Document.ofText (.ofText (trim (joinLines x))) = .ok document' ∧
      document'.root.tag = document.root.tag ∧
      Alike document.root.content document'.root.content := by
  obtain ⟨u, v, -, -, htrim⟩ := exists_blanks_of_trim x
  obtain ⟨mark, opening, sp, w, sp', hmark, hbody, hplain, hdocument⟩ :=
    exists_isPlainDocument_of_ofText hunits hx h
  have hlayout : IsLaidOut (u ++ (mark ++ (opening ++ (sp ++ (w ++ (sp' ++ v)))))) := by
    rw [htrim, hbody] at hx
    simpa using hx
  -- neither the mark nor the declaration has line feeds
  have hmarkFeed : '\n' ∉ mark := fun hmem => by cases eq_of_mem_mark hmark _ hmem
  have hopeningFeed : '\n' ∉ opening := by
    rcases hdocument.declared with rfl | ⟨q, rfl, hq⟩
    · exact List.not_mem_nil
    · have hdeclared : IsLaidOut ((u ++ mark) ++ '<' :: ('?' :: q ++ '>' ::
          (sp ++ (w ++ (sp' ++ v))))) := by
        simpa using hlayout
      have := (hdeclared.tag (by simp [hq])).2
      simpa using this
  obtain ⟨d, hopening, helement⟩ := hdocument.root
  obtain ⟨e, he, htag, halike⟩ := helement.exists_joinLines hplain
    (a := u ++ (mark ++ (opening ++ sp))) (b := sp' ++ v) (by simpa using hlayout)
  have hjoined : IsPlainDocument opening (joinLines sp) (joinLines w) (joinLines sp') e :=
    ⟨hdocument.declared, isSpaces_joinLines hdocument.spaces, isSpaces_joinLines hdocument.spaces',
      d, hopening, he⟩
  obtain ⟨document', hdocument', rfl⟩ := hjoined.exists_ofText hmark
  refine ⟨document', ?_, htag, halike⟩
  rw [trim_joinLines, hbody, joinLines_append, joinLines_append, joinLines_append,
    joinLines_append, joinLines_of_not_mem hmarkFeed, joinLines_of_not_mem hopeningFeed]
  exact hdocument'

end Documents

end Netconf.Xml
