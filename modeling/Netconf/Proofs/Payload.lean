import Netconf.Proofs.Reply
import Netconf.Proofs.TagText
import Netconf.Proofs.Xml.Document

/-!
# The payload of a document

The payload is looked for in the text of a reply, by rules of its own. Where plain text shows the
root element of a document (`ShowsRoot`), these rules agree with how the document is read: the
search passes what stands in front of the root (`payload?_of_isProlog`), finds the end of its start
tag (`rootPayload?_append`) and then its end tag (`beforeLastEndTag?_append`).
-/

namespace Netconf.Reply

open Netconf.Outcome Netconf.Text Netconf.Xml

/-! ## The last end tag -/

lemma beforeLastEndTag?_eq_none {s : List Char}
    (h : ∀ t, t <:+ s → startsWithEndTag rootName t = false) : beforeLastEndTag? s = none := by
  induction s with
  | nil => rfl
  | cons c s ih =>
    rw [beforeLastEndTag?, ih fun t ht => h t (ht.trans (List.suffix_cons c s))]
    dsimp only
    rw [h (c :: s) List.suffix_rfl]
    rfl

/-- What stands in front of an end tag with no other one behind it. -/
lemma beforeLastEndTag?_append {c : Char} {s : List Char} (a : List Char)
    (hstart : startsWithEndTag rootName (c :: s) = true)
    (hlast : ∀ t, t <:+ s → startsWithEndTag rootName t = false) :
    beforeLastEndTag? (a ++ c :: s) = some a := by
  induction a with
  | nil =>
    rw [List.nil_append, beforeLastEndTag?, beforeLastEndTag?_eq_none hlast]
    dsimp only
    rw [hstart]
    rfl
  | cons d a ih =>
    rw [List.cons_append, beforeLastEndTag?, ih]

/-! ## Steps of the search -/

namespace Search

lemma payload?_blank {c : Char} {s : List Char} (hc : isBlank c = true) :
    payload? .between (c :: s) = payload? .between s := by
  rw [payload?, if_pos rfl, if_pos hc]

lemma payload?_blanks {w : List Char} (hw : IsBlanks w) (s : List Char) :
    payload? .between (w ++ s) = payload? .between s := by
  induction w with
  | nil => rfl
  | cons c w ih =>
    rw [List.cons_append, payload?_blank (hw c List.mem_cons_self)]
    exact ih fun d hd => hw d (List.mem_cons_of_mem c hd)

lemma payload?_entered {s rest : List Char} {inner : Search}
    (h : entered? s = some (inner, rest)) : payload? .between ('<' :: s) = payload? inner rest := by
  rw [payload?, if_pos rfl, if_neg (by decide), if_pos rfl]
  split
  · next heq =>
    rw [h] at heq
    cases heq
    rfl
  · next heq =>
    rw [h] at heq
    cases heq

/-- Where nothing else begins, the root has to. -/
lemma payload?_of_not_entered {s : List Char} (h : entered? s = none) :
    payload? .between ('<' :: s) = rootPayload? ('<' :: s) := by
  rw [payload?, if_pos rfl, if_neg (by decide), if_pos rfl]
  split
  · next heq =>
    rw [h] at heq
    cases heq
  · rfl

lemma entered?_eq_none {c : Char} (hc : c ∉ ['!', '?']) (s : List Char) :
    entered? (c :: s) = none := by
  simp only [List.mem_cons, List.not_mem_nil, or_false, not_or] at hc
  simp [entered?, Ne.symm hc.1, Ne.symm hc.2]

lemma payload?_root {c : Char} {s : List Char} (hc : c ∉ ['!', '?', '/']) :
    payload? .between ('<' :: c :: s) = rootPayload? ('<' :: c :: s) :=
  payload?_of_not_entered (entered?_eq_none (fun hmem => hc (by simp_all)) s)

/-- What cannot end is passed. -/
lemma payload?_further {search : Search} {c : Char} {s : List Char} (hsearch : search ≠ .between)
    (h : ¬ search.closing <+: c :: s) : payload? search (c :: s) = payload? search s := by
  rw [payload?, if_neg hsearch, if_neg (by rwa [List.isPrefixOf_iff_prefix])]

lemma closing_ne_nil {search : Search} (h : search ≠ .between) : search.closing ≠ [] := by
  cases search with
  | between => exact absurd rfl h
  | inInstruction => exact List.cons_ne_nil _ _
  | inComment => exact List.cons_ne_nil _ _
  | inDoctype => exact List.cons_ne_nil _ _

/-- Where something may end that precedes the root, the search goes on behind it, and inside it if
nothing is found behind. -/
lemma payload?_closing_append {search : Search} (hsearch : search ≠ .between) (s : List Char) :
    payload? search (search.closing ++ s) = (payload? .between s).or
      (if search = .inDoctype then none else payload? search (search.closing.tail ++ s)) := by
  obtain ⟨c, cs, hcs⟩ := List.exists_cons_of_ne_nil (closing_ne_nil hsearch)
  have hprefix : (c :: cs).isPrefixOf (c :: (cs ++ s)) = true :=
    List.isPrefixOf_iff_prefix.2 (List.prefix_append (c :: cs) s)
  rw [hcs, List.cons_append, payload?, if_neg hsearch, hcs, if_pos hprefix]
  dsimp only
  rw [List.length_cons, Nat.add_sub_cancel, List.drop_left]
  cases payload? .between s <;> rfl

lemma payload?_closing (search : Search) {s p : List Char} (hsearch : search ≠ .between)
    (h : payload? .between s = some p) : payload? search (search.closing ++ s) = some p := by
  rw [payload?_closing_append hsearch, h]
  rfl

/-! ## What the search passes -/

/-- Text without the character that would begin the end is passed. -/
lemma payload?_pass (search : Search) {c : Char} {w : List Char} (hsearch : search ≠ .between)
    (hclosing : search.closing.head? = some c) (hw : c ∉ w) (s : List Char) :
    payload? search (w ++ s) = payload? search s := by
  obtain ⟨cs, hcs⟩ := List.head?_eq_some_iff.1 hclosing
  induction w with
  | nil => rfl
  | cons d w ih =>
    rw [List.mem_cons, not_or] at hw
    rw [List.cons_append, payload?_further hsearch]
    · exact ih hw.2
    · rw [hcs]
      intro hprefix
      exact hw.1 (List.cons_prefix_cons.1 hprefix).1

section Pass

variable {s rest v p : List Char}

/-- Two characters that do not stand at a place begin nothing there. -/
lemma not_prefix_of_not_and {a b c : Char} {t s : List Char} (hs : s ≠ [])
    (h : ¬ (c = a ∧ s.head? = some b)) (v : List Char) : ¬ a :: b :: t <+: c :: (s ++ v) := by
  obtain ⟨d, s, rfl⟩ := List.exists_cons_of_ne_nil hs
  intro hprefix
  obtain ⟨hfirst, hmore⟩ := List.cons_prefix_cons.1 hprefix
  obtain ⟨hsecond, -⟩ := List.cons_prefix_cons.1 hmore
  exact h ⟨hfirst.symm, congrArg some hsecond.symm⟩

lemma payload?_comment (h : scanComment s = .ok rest)
    (hp : payload? .between (rest ++ v) = some p) : payload? .inComment (s ++ v) = some p := by
  induction s with
  | nil => cases h
  | cons c s ih =>
    unfold scanComment at h
    split at h
    · next hc =>
      obtain ⟨⟨u, r⟩, hr, rfl⟩ := map_eq_ok_iff.1 h
      obtain ⟨s', hs'⟩ := List.head?_eq_some_iff.1 hc.2
      rw [hs', List.tail_cons] at hr
      rw [hc.1, hs', eq_of_scanChar hr]
      exact payload?_closing .inComment Search.noConfusion hp
    · next hc =>
      split at h
      · -- two hyphens would have ended the comment, so it does not end here
        have hs : s ≠ [] := by
          rintro rfl
          cases h
        have hend : ¬ Search.inComment.closing <+: c :: (s ++ v) := not_prefix_of_not_and hs hc v
        rw [List.cons_append, payload?_further Search.noConfusion hend]
        exact ih h
      · cases h

lemma payload?_instructionBody (h : scanInstructionBody s = .ok rest)
    (hp : payload? .between (rest ++ v) = some p) : payload? .inInstruction (s ++ v) = some p := by
  induction s with
  | nil => cases h
  | cons c s ih =>
    unfold scanInstructionBody at h
    split at h
    · next hc =>
      cases h
      obtain ⟨s', hs'⟩ := List.head?_eq_some_iff.1 hc.2
      rw [hs', List.tail_cons] at hp
      rw [hc.1, hs']
      exact payload?_closing .inInstruction Search.noConfusion hp
    · next hc =>
      split at h
      · have hs : s ≠ [] := by
          rintro rfl
          cases h
        have hend : ¬ Search.inInstruction.closing <+: c :: (s ++ v) :=
          not_prefix_of_not_and hs hc v
        rw [List.cons_append, payload?_further Search.noConfusion hend]
        exact ih h
      · cases h

lemma payload?_instruction {b : Bool} (h : scanInstruction s = .ok (b, rest))
    (hp : payload? .between (rest ++ v) = some p) : payload? .inInstruction (s ++ v) = some p := by
  obtain ⟨target, r, hname, rfl, -, hr⟩ := eq_of_scanInstruction h
  have htarget : '?' ∉ target := by
    intro hmem
    exact ne_of_class (hname.isNameChar _ hmem) (by decide : isNameChar '?' = false) rfl
  rw [List.append_assoc, payload?_pass .inInstruction Search.noConfusion rfl htarget]
  rcases hr with rfl | ⟨c, body, hc, rfl, hbody⟩
  · exact payload?_closing .inInstruction Search.noConfusion hp
  · have hspace : '?' ∉ [c] := by
      intro hmem
      exact ne_of_class hc (by decide : isSpace '?' = false) (List.mem_singleton.1 hmem).symm
    have := payload?_pass .inInstruction Search.noConfusion rfl hspace (body ++ v)
    rw [List.cons_append, ← List.singleton_append, this]
    exact payload?_instructionBody hbody hp

lemma payload?_doctype {w : List Char} (hw : '>' ∉ w)
    (hp : payload? .between rest = some p) : payload? .inDoctype (w ++ '>' :: rest) = some p := by
  rw [payload?_pass .inDoctype Search.noConfusion rfl hw]
  exact payload?_closing .inDoctype Search.noConfusion hp

/-- What stands in front of the root element is passed, if a document type declaration has no
bracket in front of its closing one. -/
lemma payload?_of_isProlog {root : List Char} (h : IsProlog (fun w => '>' ∉ w) root s)
    (hp : payload? .between (root ++ v) = some p) : payload? .between (s ++ v) = some p := by
  induction h with
  | root _ _ => exact hp
  | @space w s hw _ ih =>
    rw [List.append_assoc, payload?_blanks fun c hc => isBlank_of_isSpace (hw c hc)]
    exact ih
  | @comment r s hr _ ih =>
    exact (payload?_entered rfl).trans (payload?_comment hr ih)
  | @instruction r s hr _ ih =>
    exact (payload?_entered rfl).trans (payload?_instruction hr ih)
  | @doctype w s hw _ ih =>
    have hw : '>' ∉ w := by
      intro hmem
      exact hw (List.mem_append_right _ hmem)
    have hbehind : payload? .inDoctype ((w ++ '>' :: s) ++ v) = some p := by
      rw [List.append_assoc, List.cons_append]
      exact payload?_doctype hw ih
    exact (payload?_entered rfl).trans hbehind

lemma payload?_of_isDeclared (h : IsDeclared s rest)
    (hp : payload? .between (rest ++ v) = some p) : payload? .between (s ++ v) = some p := by
  obtain ⟨r, rfl, hr⟩ := h.scanned
  exact (payload?_entered rfl).trans (payload?_instruction hr hp)

end Pass

end Search

/-! ## The start tag -/

lemma EndsTagName.not_word {tail : List Char} (h : EndsTagName tail) :
    tail.head?.any isWord = false := by
  cases htail : tail.head? with
  | none => rfl
  | some c =>
    rw [Option.any_some]
    rcases h c htail with hc | rfl | rfl
    · rcases isSpace_iff.1 hc with rfl | rfl | rfl | rfl <;> decide
    · decide
    · decide

lemma isNameChar_of_mem_rootName : ∀ c ∈ rootName, isNameChar c = true :=
  List.all_eq_true.1 (by decide)

/-- A root element whose start tag plain text shows has a payload up to its last end tag, or an
empty one. -/
lemma rootPayload?_append {n w rest p : List Char} {as : List RawAttribute} {e : Bool}
    (hn : IsTagName n) (hplain : isPlainly rootName n = true) (hw : IsAttributeText as w)
    (hgt : '>' ∉ w) (hp : (if e then some [] else beforeLastEndTag? rest) = some p) :
    rootPayload? ('<' :: (n ++ (w ++ (tagEnd e ++ rest)))) = some p := by
  have htail : EndsTagName (w ++ (tagEnd e ++ rest)) := endsTagName_attributes hw
  obtain ⟨more, hmore⟩ := behindName_of_isPlainly hn hplain htail
  have hbehind : payloadBehindName? (w ++ (tagEnd e ++ rest)) = some p := by
    rw [payloadBehindName?, htail.not_word, if_neg Bool.false_ne_true,
      behindBracket?_append hgt hw.ends]
    cases e <;> exact hp
  rw [rootPayload?, hmore, List.findSome?_cons, hbehind]

/-! ## The root element -/

/-- What plain text needs in order to show the root element of a document. -/
structure ShowsRoot (t : List Char) (document : Document) (tag : RawTag) : Prop where
  /-- No mark stands in front of the document. -/
  noMark : (trim t).head? ≠ some byteOrderMark
  /-- A document type declaration has no closing bracket but its own. -/
  doctype : ∀ w, writtenDoctype? (trim t) = some w → '>' ∉ w
  /-- No value in the start tag of the root has a closing bracket. -/
  values : ∀ a ∈ tag.attributes, ValuePart.char '>' ∉ a.value
  /-- The qualifier of the root, if it has one, is a word with dots and hyphens. -/
  qualifier : hasPlainQualifier tag.name = true
  /-- No end tag of the name stands behind that of the root. -/
  behind : tag.isEmpty = false → ∀ m, IsEndTag rootName m → ¬ m <:+: document.closing.rest

/-- Whether a text is what stands between the start tag and the end tag of the root element. -/
def IsInner (t inner : List Char) (document : Document) : Prop :=
  ∃ before startTag endTag v, t = before ++ (startTag ++ (inner ++ (endTag ++
      (document.closing.rest ++ v)))) ∧ IsBlanks v ∧
    document.opening.place = startTag ++ document.opening.rest ∧
    document.opening.rest = inner ++ document.closing.place ∧
    document.closing.place = endTag ++ document.closing.rest

lemma suffix_of_not_mem {x s t : List Char} {c : Char} (hc : c ∉ x) (ht : t.head? = some c)
    (h : t <:+ x ++ s) : t <:+ s := by
  -- the text begins with a character that is not in front
  induction x with
  | nil => exact h
  | cons d x ih =>
    rw [List.mem_cons, not_or] at hc
    rcases List.suffix_cons_iff.1 h with rfl | h
    · exact absurd (Option.some.inj ht).symm hc.1
    · exact ih hc.2 h

/-- Blanks behind a text do not complete an end tag. -/
lemma IsEndTag.infix_of_blanks {name m s v : List Char} (hm : IsEndTag name m) (hv : IsBlanks v)
    (h : m <:+: s ++ v) : m <:+: s :=
  infix_of_not_mem hm.getLast? (hv.not_mem (by decide)) h

/-- The end tag of a root that plain text shows is the last one in the text. -/
lemma beforeLastEndTag?_of_endTag (inner : List Char) {n place rest v : List Char}
    (hscan : scanMarkup place = .ok (.endTag n, rest)) (hplain : isPlainly rootName n = true)
    (hv : IsBlanks v) (hbehind : ∀ m, IsEndTag rootName m → ¬ m <:+: rest) :
    beforeLastEndTag? (inner ++ (place ++ v)) = some inner := by
  obtain ⟨hn, w, hw, rfl⟩ := eq_of_scanMarkup_endTag hscan
  -- no further end tag begins before the end of this one
  have hopen : '<' ∉ '/' :: (n ++ (w ++ ['>'])) := by
    have hnames := hn.isBare.1
    have hspaces := hw.isBare.1
    simp [hnames, hspaces]
  have hplace : '<' :: '/' :: (n ++ (w ++ '>' :: rest)) ++ v
      = '<' :: (('/' :: (n ++ (w ++ ['>']))) ++ (rest ++ v)) := by simp
  rw [hplace]
  refine beforeLastEndTag?_append inner ?_ ?_
  · have := startsWithEndTag_append isNameChar_of_mem_rootName hn hw (rest ++ v)
    rw [hplain] at this
    simpa using this
  · intro t ht
    rw [Bool.eq_false_iff]
    intro hstart
    obtain ⟨m, hm, hprefix⟩ := exists_of_startsWithEndTag hstart
    have hsuffix := suffix_of_not_mem hopen (head?_of_startsWithEndTag hstart) ht
    have hinfix : m <:+: rest ++ v := List.IsInfix.trans hprefix.isInfix hsuffix.isInfix
    exact hbehind m hm (hm.infix_of_blanks hv hinfix)

/-- The search finds the root element that plain text shows, and what is inside. -/
lemma payload_of_showsRoot {t : List Char} {document : Document} {tag : RawTag}
    (hunits : Char.ofNat 0 ∉ (trim t).take 2) (h : ShowsRoot t document tag)
    (hmarkup : document.opening.markup = .startTag tag)
    (hdocument : Document.ofText (.ofText (trim t)) = .ok document)
    (hname : document.root.name.base = rootName) :
    (tag.isEmpty = true → payload t = []) ∧
      (tag.isEmpty = false → IsInner t (payload t) document) := by
  have hbody := (ofText_eq_ofBody hunits).symm.trans hdocument
  rw [behindMark, if_neg h.noMark] at hbody
  have hread : IsDocument (fun w => '>' ∉ w) (trim t) document :=
    isDocument_of_ofBody hbody h.doctype
  obtain ⟨tag', htag, hscan, hbase, hend⟩ := hread.root
  rw [hmarkup] at htag
  cases htag
  obtain ⟨hn, w, hw, hplace⟩ := eq_of_scanMarkup_startTag hscan
  -- plain text shows where the start tag ends
  have hgt : '>' ∉ w := by
    intro hmem
    obtain ⟨a, ha, hvalue⟩ := hw.closing hmem
    exact h.values a ha hvalue
  have hplain : isPlainly rootName tag.name = true :=
    isPlainly_iff.2 ⟨hbase.symm.trans hname, h.qualifier⟩
  obtain ⟨u, v, hu, hv, ht⟩ := exists_blanks_of_trim t
  -- what is found from the root element on is found in the whole text
  have hfound : ∀ p, (if tag.isEmpty then some [] else
      beforeLastEndTag? (document.opening.rest ++ v)) = some p → payload t = p := by
    intro p hp
    have hroot : rootPayload? (document.opening.place ++ v) = some p := by
      rw [hplace]
      have := rootPayload?_append hn hplain hw hgt hp
      simpa using this
    obtain ⟨s', hs', hprolog⟩ := hread.prolog
    obtain ⟨c, r, hstart, hc⟩ := hprolog.root_start
    have hbetween : Search.payload? .between (document.opening.place ++ v) = some p := by
      rw [hstart] at hroot ⊢
      exact (Search.payload?_root hc).trans hroot
    have hbefore := Search.payload?_of_isProlog hprolog hbetween
    have hwhole : Search.payload? .between (trim t ++ v) = some p := by
      rcases hs' with rfl | hdeclared
      · exact hbefore
      · exact Search.payload?_of_isDeclared hdeclared hbefore
    rw [payload, ht, Search.payload?_blanks hu, hwhole]
    rfl
  refine ⟨fun hempty => hfound [] (by rw [hempty]; rfl), ?_⟩
  intro hempty
  cases hend with
  | empty hempty' _ =>
    rw [hempty] at hempty'
    cases hempty'
  | endTag _ hsuffix hclosing =>
    obtain ⟨inner, hinner⟩ := hsuffix
    have hlast := beforeLastEndTag?_of_endTag inner hclosing hplain hv (h.behind hempty)
    have hpayload : payload t = inner := by
      refine hfound inner ?_
      rw [hempty, if_neg Bool.false_ne_true, ← hinner, List.append_assoc]
      exact hlast
    rw [hpayload]
    -- it remains to cut the text at the tags of the root
    obtain ⟨before, hbefore⟩ := hread.suffix
    obtain ⟨startTag, hstart⟩ := suffix_of_scanMarkup hscan
    obtain ⟨endTag, hendTag⟩ := suffix_of_scanMarkup hclosing
    refine ⟨u ++ before, startTag, endTag, v, ?_, hv, hstart.symm, hinner.symm, hendTag.symm⟩
    calc t = u ++ (trim t ++ v) := ht
      _ = u ++ ((before ++ (startTag ++ (inner ++ (endTag ++ document.closing.rest)))) ++ v) := by
        rw [hendTag, hinner, hstart, hbefore]
      _ = (u ++ before) ++ (startTag ++ (inner ++ (endTag ++ (document.closing.rest ++ v)))) := by
        simp only [List.append_assoc]

/-- **The payload is what stands inside the root element.** A text that reads as a reply is a
document with a start tag. Where the text does not stand for units of sixteen bits and plain text
shows the root element, the payload is exactly what stands between the tags of the root, whatever
comments, instructions, character data sections and further elements of the same name there are;
that of an empty tag is empty. -/
theorem data_of_parse {t : List Char} {r : Reply} (h : (parse t).result = .ok r) :
    ∃ document tag, Document.ofText (.ofText (trim t)) = .ok document ∧
      document.opening.markup = .startTag tag ∧
      (Char.ofNat 0 ∉ (trim t).take 2 → ShowsRoot t document tag →
        (tag.isEmpty = true → r.data = []) ∧
          (tag.isEmpty = false → IsInner t r.data document)) := by
  rw [result_parse, ofText_eq_ok_iff] at h
  obtain ⟨document, hdocument, hname, rfl⟩ := h
  obtain ⟨_, s, hread⟩ := exists_isDocument_of_ofText hdocument
  obtain ⟨tag, hmarkup, -⟩ := hread.root
  exact ⟨document, tag, hdocument, hmarkup, fun hunits hshows =>
    payload_of_showsRoot hunits hshows hmarkup hdocument hname⟩

/-- A root without attributes and with nothing behind it is shown. -/
lemma showsRoot_of_bare {t : List Char} {document : Document}
    (hmark : (trim t).head? ≠ some byteOrderMark) (hdoctype : writtenDoctype? (trim t) = none)
    (hrest : document.closing.rest = []) : ShowsRoot t document ⟨rootName, [], false⟩ where
  noMark := hmark
  doctype := fun w hw => by
    rw [hdoctype] at hw
    cases hw
  values := fun a ha => absurd ha List.not_mem_nil
  qualifier := by decide
  behind := fun _ m hm hinfix => by
    obtain ⟨qualifier, w, -, -, rfl⟩ := hm
    rw [hrest, List.infix_nil] at hinfix
    cases hinfix

/-- A reply with decoys of its tags in front of the root and inside. -/
def replyWithDecoys : List Char :=
  "<!-- <rpc-reply> --><rpc-reply><![CDATA[</rpc-reply>]]></rpc-reply>\n".toList

theorem data_of_replyWithDecoys :
    ∃ r document tag, (parse replyWithDecoys).result = .ok r ∧
      Document.ofText (.ofText (trim replyWithDecoys)) = .ok document ∧
      document.opening.markup = .startTag tag ∧ tag.isEmpty = false ∧
      Char.ofNat 0 ∉ (trim replyWithDecoys).take 2 ∧ ShowsRoot replyWithDecoys document tag ∧
      IsInner replyWithDecoys r.data document := by
  have hdocument : (Document.ofText (.ofText (trim replyWithDecoys))).toOption.map
      (fun document => (document.opening.markup, document.closing.rest, document.root.name.base))
      = some (.startTag ⟨rootName, [], false⟩, [], rootName) := by decide +kernel
  obtain ⟨document, hdocument, hparts⟩ := exists_document_of_map hdocument
  obtain ⟨hmarkup, hrest, hname⟩ : _ ∧ _ ∧ _ := by simpa only [Prod.mk.injEq] using hparts
  have hparse := (result_parse replyWithDecoys).trans
    (ofText_eq_ok_iff.2 ⟨document, hdocument, hname, rfl⟩)
  have hunits : Char.ofNat 0 ∉ (trim replyWithDecoys).take 2 := by decide +kernel
  have hshows : ShowsRoot replyWithDecoys document ⟨rootName, [], false⟩ :=
    showsRoot_of_bare (by decide +kernel) (by decide +kernel) hrest
  obtain ⟨document', tag, hdocument', hmarkup', hinner⟩ := data_of_parse hparse
  obtain rfl : document = document' := Except.ok.inj (hdocument.symm.trans hdocument')
  obtain rfl : ⟨rootName, [], false⟩ = tag := Markup.startTag.inj (hmarkup.symm.trans hmarkup')
  exact ⟨_, document, _, hparse, hdocument, hmarkup, rfl, hunits, hshows,
    (hinner hunits hshows).2 rfl⟩

/-- A reply in units of sixteen bits. -/
def wideReply : List Char := inUnits "<rpc-reply>x</rpc-reply>".toList

/-- Where a text stands for units of sixteen bits, it does not show the root that is read. -/
theorem data_of_wideReply :
    ∃ r document tag, (parse wideReply).result = .ok r ∧
      Document.ofText (.ofText (trim wideReply)) = .ok document ∧
      document.opening.markup = .startTag tag ∧ tag.isEmpty = false ∧
      ShowsRoot wideReply document tag ∧ document.root.text = ['x'] ∧ r.data = [] ∧
      ¬ IsInner wideReply r.data document := by
  have hdocument : (Document.ofText (.ofText (trim wideReply))).toOption.map
      (fun document => (document.opening.markup, document.closing.rest, document.root.name.base,
        document.root.text, document.opening.rest == document.closing.place))
      = some (.startTag ⟨rootName, [], false⟩, [], rootName, ['x'], false) := by decide +kernel
  obtain ⟨document, hdocument, hparts⟩ := exists_document_of_map hdocument
  obtain ⟨hmarkup, hrest, hname, htext, hinside⟩ : _ ∧ _ ∧ _ ∧ _ ∧ _ := by
    simpa only [Prod.mk.injEq] using hparts
  have hparse := (result_parse wideReply).trans
    (ofText_eq_ok_iff.2 ⟨document, hdocument, hname, rfl⟩)
  have hdata : payload wideReply = [] := by decide +kernel
  refine ⟨_, document, _, hparse, hdocument, hmarkup, rfl,
    showsRoot_of_bare (by decide +kernel) (by decide +kernel) hrest, htext, hdata, ?_⟩
  rintro ⟨before, startTag, endTag, v, -, -, -, hinner, -⟩
  rw [hdata] at hinner
  exact beq_eq_false_iff_ne.1 hinside hinner

end Netconf.Reply
