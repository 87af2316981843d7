import Netconf.Proofs.Utf8
import Netconf.Proofs.Xml.PlainDocument
import Netconf.Proofs.Xml.WrittenTag
import Netconf.Request.Basic

/-!
# Requests that carry several operations

Each operation is written on its own, and a request puts them one after the other into one element.
An operation that can be read inside that element alone is content of it (`isContent_of_wrapped`),
and pieces of content stand side by side, so that a request has the elements of its operations in
their order (`build_fragments`).
-/

namespace Netconf.Request

open Netconf.Outcome Netconf.Text Netconf.Xml

/-! ## The element around operations -/

/-- The start tag of the element that requests are, without a message id. -/
def bareTag : List Char := "<rpc xmlns=\"".toList ++ baseNamespace ++ "\">".toList

/-- The element that requests are, around a text and without a message id. -/
def wrapped (s : List Char) : List Char := bareTag ++ s ++ "</rpc>".toList

/-- The scope inside the element that requests are. -/
def bodyScope : Scope := ([], baseNamespace) :: Scope.initial

/-- The name of the element that requests are. -/
def rpcName : Name := ⟨baseNamespace, "rpc".toList⟩

/-- The declaration of the namespace of requests. -/
def namespaceAttribute : WrittenAttribute := ⟨"xmlns".toList, baseNamespace, baseNamespace⟩

/-- The message id of a request. -/
def idAttribute (id : List Char) : WrittenAttribute := ⟨"message-id".toList, id, id⟩

lemma isName_rpc : IsName "rpc".toList := by decide

/-- Whether a text can be written into a value as it is. -/
def IsVerbatim (s : List Char) : Prop :=
  ∀ c ∈ s, isXmlChar c = true ∧ c ∉ ['<', '&', '\x22', '\t', '\n', '\r']

instance (s : List Char) : Decidable (IsVerbatim s) := List.decidableBAll _ _

lemma isValue_of_isVerbatim {s : List Char} (h : IsVerbatim s) : IsValue s s := by
  induction s with
  | nil => exact isValue_nil
  | cons c s ih =>
    obtain ⟨hxml, hc⟩ := h c List.mem_cons_self
    refine (ih fun d hd => h d (List.mem_cons_of_mem c hd)).char ?_ hxml
    simp only [List.mem_cons, List.not_mem_nil, or_false, not_or] at hc ⊢
    tauto

lemma isWritten_namespaceAttribute : namespaceAttribute.IsWritten where
  name := Or.inl (by decide : IsName "xmlns".toList)
  value := isValue_of_isVerbatim (by decide)

lemma isWritten_idAttribute {id : List Char} (h : IsVerbatim id) : (idAttribute id).IsWritten where
  name := Or.inl (by decide : IsName "message-id".toList)
  value := isValue_of_isVerbatim h

lemma exists_isTag_bareTag : ∃ raw, IsTag (Dtd.empty false) Scope.initial bareTag
    ⟨"rpc".toList, raw, false⟩ ⟨rpcName, []⟩ bodyScope := by
  have hwritten : ∀ a ∈ [namespaceAttribute], a.IsWritten :=
    fun a ha => List.mem_singleton.1 ha ▸ isWritten_namespaceAttribute
  have hattributes : TagReading.addAll ⟨[], [], Scope.initial⟩ [("xmlns".toList, baseNamespace)] =
      .ok ⟨["xmlns".toList], [], bodyScope⟩ := rfl
  exact isTag_of_attributes (Or.inl isName_rpc) hwritten isSpaces_nil false hattributes rfl

/-- The start tag of a request. -/
lemma exists_isTag_rpc {id : List Char} (h : IsVerbatim id) : ∃ raw, IsTag (Dtd.empty false)
    Scope.initial ("<rpc message-id=\"".toList ++ id ++ "\" xmlns=\"".toList ++ baseNamespace ++
      "\">".toList) ⟨"rpc".toList, raw, false⟩
    ⟨rpcName, [⟨⟨[], "message-id".toList⟩, id⟩]⟩ bodyScope := by
  have hwritten : ∀ a ∈ [idAttribute id, namespaceAttribute], a.IsWritten := by
    intro a ha
    rcases List.mem_pair.1 ha with rfl | rfl
    · exact isWritten_idAttribute h
    · exact isWritten_namespaceAttribute
  have hattributes : TagReading.addAll ⟨[], [], Scope.initial⟩
      [("message-id".toList, id), ("xmlns".toList, baseNamespace)] =
      .ok ⟨["xmlns".toList, "message-id".toList], [("message-id".toList, id)], bodyScope⟩ := rfl
  have hfinish : TagReading.finish (Dtd.empty false) "rpc".toList
      ⟨["xmlns".toList, "message-id".toList], [("message-id".toList, id)], bodyScope⟩ =
      .ok (⟨rpcName, [⟨⟨[], "message-id".toList⟩, id⟩]⟩, bodyScope) := rfl
  have htext : "<rpc message-id=\"".toList ++ id ++ "\" xmlns=\"".toList ++ baseNamespace ++
      "\">".toList = '<' :: ("rpc".toList ++ ([idAttribute id, namespaceAttribute].flatMap
        (fun a => attributeText a.name a.text) ++ ([] ++ tagEnd false))) := by
    simp only [List.flatMap_cons, List.flatMap_nil, attributeText, List.append_assoc,
      List.cons_append]
    rfl
  rw [htext]
  exact isTag_of_attributes (Or.inl isName_rpc) hwritten isSpaces_nil false hattributes hfinish

/-! ## Fragments -/

/-- Whether a text ends with white space, or as a comment or an instruction does. -/
def EndsAside (s : List Char) : Prop :=
  ∃ before c, (isSpace c = true ∧ s = before ++ [c]) ∨
    ((c = '-' ∨ c = '?') ∧ s = before ++ [c, '>'])

lemma EndsAside.behind {s : List Char} (h : EndsAside s) (w : List Char) : EndsAside (w ++ s) := by
  obtain ⟨before, c, ⟨hc, rfl⟩ | ⟨hc, rfl⟩⟩ := h
  · exact ⟨w ++ before, c, Or.inl ⟨hc, by rw [List.append_assoc]⟩⟩
  · exact ⟨w ++ before, c, Or.inr ⟨hc, by rw [List.append_assoc]⟩⟩

/-- What stands behind a root element does not end like an end tag. -/
lemma endsAside_of_isEpilog {s : List Char} (h : IsEpilog s) : s = [] ∨ EndsAside s := by
  induction h with
  | ended => exact Or.inl rfl
  | @space w s hw _ ih =>
    rcases ih with rfl | hs
    · rw [List.append_nil]
      rcases List.eq_nil_or_concat w with rfl | ⟨w, c, rfl⟩
      · exact Or.inl rfl
      · exact Or.inr ⟨w, c, Or.inl ⟨hw c (by simp), by simp⟩⟩
    · exact Or.inr (hs.behind w)
  | @comment r s hr _ ih =>
    obtain ⟨w, rfl⟩ := eq_of_scanComment hr
    have hs : EndsAside ('-' :: '>' :: s) := by
      rcases ih with rfl | hs
      · exact ⟨[], '-', Or.inr ⟨Or.inl rfl, rfl⟩⟩
      · exact hs.behind ['-', '>']
    exact Or.inr (by simpa using hs.behind ('<' :: '!' :: '-' :: '-' :: (w ++ ['-'])))
  | @instruction r s hr _ ih =>
    obtain ⟨w, rfl⟩ := exists_append_of_scanInstruction hr
    have hs : EndsAside ('?' :: '>' :: s) := by
      rcases ih with rfl | hs
      · exact ⟨[], '?', Or.inr ⟨Or.inr rfl, rfl⟩⟩
      · exact hs.behind ['?', '>']
    exact Or.inr (by simpa using hs.behind ('<' :: '?' :: w))

lemma not_endsAside_endTag (s : List Char) : ¬ EndsAside (s ++ ['c', '>']) := by
  rintro ⟨before, c, ⟨hc, heq⟩ | ⟨hc, heq⟩⟩
  · have := congrArg List.getLast? heq
    simp at this
    subst this
    cases hc
  · have hlen : s.length = before.length := by
      have := congrArg List.length heq
      simpa using this
    have := (List.append_inj heq hlen).2
    rcases hc with rfl | rfl <;> cases this

/-- Where a bracket stands last tells a text in two. -/
lemma append_bracket_inj {a b x y : List Char} (hx : '<' ∉ x) (hy : '<' ∉ y)
    (h : a ++ '<' :: x = b ++ '<' :: y) : a = b := by
  rcases List.append_eq_append_iff.1 h with ⟨c, rfl, hc⟩ | ⟨c, rfl, hc⟩
  · cases c with
    | nil => exact (List.append_nil a).symm
    | cons d c =>
      obtain ⟨-, rfl⟩ := List.cons.inj hc
      exact absurd (List.mem_append_right c List.mem_cons_self) hx
  · cases c with
    | nil => exact List.append_nil b
    | cons d c =>
      obtain ⟨-, rfl⟩ := List.cons.inj hc
      exact absurd (List.mem_append_right c List.mem_cons_self) hy

/-- What the element around a fragment begins with. -/
lemma wrapped_eq (s : List Char) : wrapped s = '<' :: 'r' :: ("pc xmlns=\"".toList ++
    (baseNamespace ++ ("\">".toList ++ (s ++ "</rpc>".toList)))) := by
  unfold wrapped bareTag
  simp only [List.append_assoc]
  simp only [String.reduceToList]
  simp only [List.cons_append]

lemma ofText_wrapped (s : List Char) :
    Document.ofText (.ofText (wrapped s)) = Document.ofBody (wrapped s) := by
  rw [wrapped_eq]
  exact ofText_bracket rfl _

/-- **A text that can be read inside the element of a request is content of it.** -/
theorem isContent_of_wrapped {s : List Char} {document : Document}
    (h : Document.ofText (.ofText (wrapped s)) = .ok document) :
    IsContent (Dtd.empty false) bodyScope s document.root.content := by
  obtain ⟨raw, htag⟩ := exists_isTag_bareTag
  rw [ofText_wrapped, wrapped_eq, ← List.nil_append ('<' :: _), ← List.nil_append ('<' :: _)] at h
  obtain ⟨w, hw, helement, hepilog⟩ :=
    isElement_of_ofBody isOpening_nil isSpaces_nil rfl h
  replace hw : wrapped s = w ++ document.closing.rest := by rw [← hw, wrapped_eq]
  rw [wrapped, List.append_assoc bareTag s] at hw
  generalize document.closing.rest = rest at hw hepilog
  generalize document.root = root at helement
  cases helement with
  | empty htag' ht =>
    obtain ⟨-, -, rfl, -⟩ := htag.unique htag' hw
    cases ht
  | @enclosed _ w v sp _ _ inner htag' ht hv hsp =>
    rw [List.append_assoc] at hw
    obtain ⟨-, hbehind, rfl, -, rfl⟩ := htag.unique htag' hw
    -- the end tag is the last thing in the text, so it is the one that was put there
    have hrest : rest = [] := by
      refine (endsAside_of_isEpilog hepilog).resolve_right fun hends => ?_
      have := hends.behind (v ++ '<' :: '/' :: ("rpc".toList ++ (sp ++ ['>'])))
      rw [← hbehind] at this
      exact not_endsAside_endTag (s ++ "</rp".toList) (by simpa using this)
    subst hrest
    rw [List.append_nil] at hbehind
    have hbare : ∀ {sp : List Char}, IsSpaces sp →
        '<' ∉ '/' :: ("rpc".toList ++ (sp ++ ['>'])) := by
      intro sp hsp
      have := hsp.isBare.1
      simp [this]
    have hs : s = v := append_bracket_inj (hbare isSpaces_nil) (hbare hsp) hbehind
    rw [hs]
    exact hv

/-- Content can be read inside the element of a request. -/
lemma exists_document_of_isContent {s : List Char} {items : List Node}
    (h : IsContent (Dtd.empty false) bodyScope s items) :
    ∃ document, Document.ofText (.ofText (wrapped s)) = .ok document ∧
      document.root = ⟨⟨rpcName, []⟩, items⟩ := by
  obtain ⟨raw, htag⟩ := exists_isTag_bareTag
  obtain ⟨document, hdocument, hroot⟩ := ofBody_of_isElement isOpening_nil isSpaces_nil
    (.enclosed htag rfl h isSpaces_nil) isSpaces_nil
  refine ⟨document, ?_, hroot⟩
  rw [ofText_wrapped, ← hdocument, List.nil_append, List.nil_append, List.append_nil, wrapped,
    List.append_assoc bareTag s]
  rfl

/-- A fragment that stands for itself: it begins and ends with a bracket, and can be read inside the
element of a request. -/
structure IsFragment (s : List Char) (document : Document) : Prop where
  starts : s.head? = some '<'
  ends : s.getLast? = some '>'
  read : Document.ofText (.ofText (wrapped s)) = .ok document

/-- Fragments side by side are content with the items of each. -/
lemma isContent_of_fragments {fragments : List (List Char)} {documents : List Document}
    (h : List.Forall₂ IsFragment fragments documents) :
    IsContent (Dtd.empty false) bodyScope fragments.flatten
      (documents.flatMap fun document => document.root.content) := by
  induction h with
  | nil => exact .nil
  | @cons s document fragments documents hs hmore ih =>
    refine (isContent_of_wrapped hs.read).append ih ?_
    cases hmore with
    | nil =>
      intro c hc
      cases hc
    | cons hs' _ =>
      intro c hc
      rw [List.flatten_cons, List.head?_append, hs'.starts] at hc
      exact (Option.some.inj hc).symm

/-- The elements of content that is put together are those of its parts. -/
lemma elements_append (a b : List Node) :
    (childrenWithTails (a ++ b)).map (·.1) =
      (childrenWithTails a).map (·.1) ++ (childrenWithTails b).map (·.1) := by
  induction a with
  | nil => rfl
  | cons n a ih =>
    cases n with
    | char c => exact ih
    | element tag content => exact congrArg (⟨tag, content⟩ :: ·) ih

lemma elements_of_documents (documents : List Document) :
    (childrenWithTails (documents.flatMap fun document => document.root.content)).map (·.1) =
      documents.flatMap fun document => document.root.children.map (·.1) := by
  induction documents with
  | nil => rfl
  | cons document documents ih => rw [List.flatMap_cons, elements_append, ih]; rfl

/-- A request is read as an element with its message id and the content of its operations. -/
lemma exists_document_of_render {r : Request} {items : List Node} (hid : IsVerbatim r.messageId)
    (hbody : IsContent (Dtd.empty false) bodyScope r.body items) :
    ∃ document, Document.ofText (.ofText r.render) = .ok document ∧
      document.root = ⟨⟨rpcName, [⟨⟨[], "message-id".toList⟩, r.messageId⟩]⟩, items⟩ := by
  obtain ⟨raw, htag⟩ := exists_isTag_rpc hid
  obtain ⟨document, hdocument, hroot⟩ := ofBody_of_isElement isOpening_nil isSpaces_nil
    (.enclosed htag rfl hbody isSpaces_nil) isSpaces_nil
  refine ⟨document, ?_, hroot⟩
  rw [List.nil_append, List.nil_append, List.append_nil] at hdocument
  rw [← hdocument]
  have hrender : r.render = '<' :: 'r' :: ("pc message-id=\"".toList ++ (r.messageId ++
      ("\" xmlns=\"".toList ++ (baseNamespace ++ ("\">".toList ++
        (r.body ++ "</rpc>".toList)))))) := by
    unfold render
    simp only [List.append_assoc]
    simp only [String.reduceToList]
    simp only [List.cons_append]
  rw [hrender, ofText_bracket rfl, ← hrender]
  exact congrArg Document.ofBody (List.append_assoc _ r.body "</rpc>".toList)

/-! ## Operations on datastores -/

/-- Whether a text is a name made of ASCII letters, digits, underscores, hyphens and dots. -/
def IsAsciiName (n : List Char) : Prop :=
  ∃ c s, n = c :: s ∧ (c.isAlpha || c == '_') = true ∧
    ∀ d ∈ s, (d.isAlphanum || d == '.' || d == '_' || d == '-') = true

lemma toNat_lt_of_isAlphanum {c : Char} (h : c.isAlphanum = true) : c.toNat < 0x80 := by
  -- each class is a range of characters, and its last one is an ASCII character
  have hlast : c.val ≤ 'Z'.val ∨ c.val ≤ 'z'.val ∨ c.val ≤ '9'.val := by
    rcases Bool.or_eq_true_iff.1 h with h | h
    · rcases Bool.or_eq_true_iff.1 h with h | h
      · exact .inl (of_decide_eq_true h).2
      · exact .inr (.inl (of_decide_eq_true (Bool.and_eq_true_iff.1 h).2))
    · exact .inr (.inr (of_decide_eq_true (Bool.and_eq_true_iff.1 h).2))
  have hbound : ∀ {d : Char}, c.val ≤ d.val → d.toNat < 0x80 → c.toNat < 0x80 :=
    fun hd => Nat.lt_of_le_of_lt (UInt32.le_iff_toNat_le.1 hd)
  rcases hlast with hlast | hlast | hlast
  · exact hbound hlast (by decide)
  · exact hbound hlast (by decide)
  · exact hbound hlast (by decide)

lemma IsAsciiName.isName {n : List Char} (h : IsAsciiName n) : IsName n := by
  obtain ⟨c, s, rfl, hc, hs⟩ := h
  refine ⟨c, s, rfl, ?_, fun d hd => ?_⟩
  · have hlt : c.toNat < 0x80 := by
      rcases Bool.or_eq_true_iff.1 hc with hc | hc
      · exact toNat_lt_of_isAlphanum (by rw [Char.isAlphanum, hc, Bool.true_or])
      · rw [beq_iff_eq.1 hc]
        decide
    rw [isNameStart, if_pos hlt, hc]
  · have hd := hs d hd
    have hlt : d.toNat < 0x80 := by
      simp only [Bool.or_eq_true, beq_iff_eq] at hd
      rcases hd with ((hd | rfl) | rfl) | rfl
      · exact toNat_lt_of_isAlphanum hd
      all_goals decide
    rw [isNameChar, if_pos hlt]
    simp only [Bool.or_eq_true] at hd ⊢
    tauto

/-- An element without attributes is in the namespace of requests. -/
lemma exists_isTag_element {name : List Char} (hname : IsName name) (e : Bool) :
    ∃ raw, IsTag (Dtd.empty false) bodyScope ('<' :: (name ++ tagEnd e)) ⟨name, raw, e⟩
      ⟨⟨baseNamespace, name⟩, []⟩ bodyScope := by
  have hfinish : TagReading.finish (Dtd.empty false) name ⟨[], [], bodyScope⟩ =
      .ok (⟨⟨baseNamespace, name⟩, []⟩, bodyScope) := by
    rw [TagReading.finish]
    change (Scope.elementName bodyScope name >>= _) = _
    rw [Scope.elementName, splitQName_of_isName hname]
    rfl
  have hnone : ∀ a ∈ ([] : List WrittenAttribute), a.IsWritten :=
    fun a ha => absurd ha List.not_mem_nil
  exact isTag_of_attributes (Or.inl hname) hnone isSpaces_nil e rfl hfinish

lemma isElement_emptyElement {name : List Char} (hname : IsName name) :
    IsElement (Dtd.empty false) bodyScope (Operation.emptyElement name)
      ⟨⟨⟨baseNamespace, name⟩, []⟩, []⟩ := by
  obtain ⟨raw, htag⟩ := exists_isTag_element hname true
  exact .empty htag rfl

lemma isElement_element (name : String) {w : List Char} {items : List Node}
    (hname : IsName name.toList) (hw : IsContent (Dtd.empty false) bodyScope w items) :
    IsElement (Dtd.empty false) bodyScope (Operation.element name w)
      ⟨⟨⟨baseNamespace, name.toList⟩, []⟩, items⟩ := by
  obtain ⟨raw, htag⟩ := exists_isTag_element hname false
  have helement := IsElement.enclosed htag rfl hw isSpaces_nil
  have htext : '<' :: (name.toList ++ tagEnd false) ++
      (w ++ '<' :: '/' :: (name.toList ++ ([] ++ ['>']))) = Operation.element name w := by
    unfold Operation.element tagEnd
    simp
  rwa [← htext]

/-- Whether a text can be written between tags as it is. -/
def IsVerbatimText (s : List Char) : Prop :=
  ∀ c ∈ s, isXmlChar c = true ∧ c ∉ ['<', '&', ']', '\r']

instance (s : List Char) : Decidable (IsVerbatimText s) := List.decidableBAll _ _

/-- A word of text in front of other content. -/
lemma isContent_word {w u : List Char} {items : List Node} (hw : IsVerbatimText w)
    (hu : IsContent (Dtd.empty false) bodyScope u items) :
    IsContent (Dtd.empty false) bodyScope (w ++ u) (w.map .char ++ items) := by
  induction w with
  | nil => exact hu
  | cons c w ih =>
    obtain ⟨hxml, hc⟩ := hw c List.mem_cons_self
    have hmore := ih fun d hd => hw d (List.mem_cons_of_mem c hd)
    refine .char (endsText_eq_false (fun hmem => hc ?_) hxml _) (fun hreturn => hc ?_) hmore
    · exact List.mem_append_left ['\r'] hmem
    · rw [hreturn]
      decide

/-- An element is a fragment. -/
lemma exists_isFragment {s : List Char} {e : Element} (hs : s.getLast? = some '>')
    (h : IsElement (Dtd.empty false) bodyScope s e) :
    ∃ document, IsFragment s document ∧ document.root.content = [.element e.tag e.content] := by
  have hcontent := h.content .nil
  rw [List.append_nil] at hcontent
  obtain ⟨document, hdocument, hroot⟩ := exists_document_of_isContent hcontent
  obtain ⟨c, r, rfl, -⟩ := h.starts
  exact ⟨document, ⟨rfl, hs, hdocument⟩, by rw [hroot]⟩

/-- An operation on a datastore names it in an element of its own. -/
lemma isElement_datastore (operation role : String) {n : List Char}
    (hoperation : IsName operation.toList) (hrole : IsName role.toList) (hn : IsName n) :
    IsElement (Dtd.empty false) bodyScope
      (Operation.element operation (Operation.element role (Operation.emptyElement n)))
      ⟨⟨⟨baseNamespace, operation.toList⟩, []⟩, [.element ⟨⟨baseNamespace, role.toList⟩, []⟩
        [.element ⟨⟨baseNamespace, n⟩, []⟩ []]]⟩ := by
  have hinner := (isElement_emptyElement hn).content .nil
  rw [List.append_nil] at hinner
  have houter := (isElement_element role hrole hinner).content .nil
  rw [List.append_nil] at houter
  exact isElement_element operation hoperation houter

lemma exists_isFragment_datastore {operation role : String} {n : List Char}
    (hoperation : IsName operation.toList) (hrole : IsName role.toList) (hn : IsName n) :
    ∃ document, IsFragment
      (Operation.element operation (Operation.element role (Operation.emptyElement n)))
      document := by
  obtain ⟨document, hdocument, -⟩ :=
    exists_isFragment List.getLast?_concat (isElement_datastore operation role hoperation hrole hn)
  exact ⟨document, hdocument⟩

/-- An edit of a configuration is content, if the configuration is. -/
lemma isContent_edit {n config : List Char} {items : List Node} (hn : IsName n)
    (hconfig : IsContent (Dtd.empty false) bodyScope config items) :
    ∃ items, IsContent (Dtd.empty false) bodyScope ('\n' ::
      Operation.element "target" (Operation.emptyElement n) ++ '\n' ::
      Operation.element "default-operation" "merge".toList ++ '\n' ::
      Operation.element "error-option" "rollback-on-error".toList ++ '\n' ::
      Operation.element "config" config ++ ['\n']) items := by
  have hword : ∀ {w : List Char}, IsVerbatimText w →
      IsContent (Dtd.empty false) bodyScope w (w.map .char) := by
    intro w hw
    have := isContent_word hw .nil
    rwa [List.append_nil, List.append_nil] at this
  have hfeed : ∀ {u : List Char} {items : List Node},
      IsContent (Dtd.empty false) bodyScope u items →
      IsContent (Dtd.empty false) bodyScope ('\n' :: u) (.char '\n' :: items) :=
    fun hu => isContent_word (w := ['\n']) (by decide) hu
  -- from the end of the text to its start
  have hlast := hfeed ((isElement_element "config" (by decide) hconfig).content
    (hfeed .nil))
  have hoption := hfeed ((isElement_element "error-option" (by decide)
    (hword (w := "rollback-on-error".toList) (by decide))).content hlast)
  have hdefault := hfeed ((isElement_element "default-operation" (by decide)
    (hword (w := "merge".toList) (by decide))).content hoption)
  have hinner := (isElement_emptyElement hn).content .nil
  rw [List.append_nil] at hinner
  have htarget := hfeed ((isElement_element "target" (by decide) hinner).content hdefault)
  simp only [List.append_assoc, List.cons_append]
  exact ⟨_, htarget⟩

/-! ## Requests -/

/-- **A request has the elements of its operations in their order.** Where each of the fragments can
be read inside the element of a request alone, the octets of the request with all of them are a
document: its root is that element with the message id as its only attribute, and the elements in
the root are those of the fragments, one fragment after the other. The operations on datastores are
such fragments, for any name of a datastore and any configuration that can be read there. -/
theorem build_fragments :
    (∀ (id : List Char) (operations : List Operation) (documents : List Document),
      id ≠ [] → IsVerbatim id →
      List.Forall₂ IsFragment (operations.map Operation.render) documents →
      ∃ r text document, (build operations (.ok (some id))).result = .ok r ∧
        Utf8.decode r.toOctets = .ok text ∧ Document.ofText (.ofText text) = .ok document ∧
        document.root.tag = ⟨rpcName, [⟨⟨[], "message-id".toList⟩, id⟩]⟩ ∧
        document.root.children.map (·.1) =
          documents.flatMap fun document => document.root.children.map (·.1)) ∧
    ∀ name, IsAsciiName name →
      (∀ operation ∈ [Operation.lock name, .unlock name, .getConfig name],
        ∃ document, IsFragment operation.render document) ∧
      ∀ config document, Document.ofText (.ofText (wrapped config)) = .ok document →
        ∃ document, IsFragment (Operation.editConfig name config).render document := by
  refine ⟨?_, ?_⟩
  · intro id operations documents hid hverbatim hfragments
    have hbody : IsContent (Dtd.empty false) bodyScope (Request.mk id operations).body
        (documents.flatMap fun document => document.root.content) :=
      isContent_of_fragments hfragments
    obtain ⟨document, hdocument, hroot⟩ := exists_document_of_render hverbatim hbody
    refine ⟨⟨id, operations⟩, _, document, ?_, Utf8.decode_encode _, hdocument, ?_, ?_⟩
    · cases id with
      | nil => exact absurd rfl hid
      | cons c id => rfl
    · rw [hroot]
    · rw [hroot]
      exact elements_of_documents documents
  · intro name hname
    refine ⟨?_, ?_⟩
    · intro operation hoperation
      simp only [List.mem_cons, List.not_mem_nil, or_false] at hoperation
      rcases hoperation with rfl | rfl | rfl
      · exact exists_isFragment_datastore (by decide) (by decide) hname.isName
      · exact exists_isFragment_datastore (by decide) (by decide) hname.isName
      · exact exists_isFragment_datastore (by decide) (by decide) hname.isName
    · intro config document hconfig
      obtain ⟨items, hedit⟩ := isContent_edit hname.isName (isContent_of_wrapped hconfig)
      obtain ⟨document, hdocument, -⟩ := exists_isFragment List.getLast?_concat
        (isElement_element "edit-config" (by decide) hedit)
      exact ⟨document, hdocument⟩

/-- A request that locks a datastore and commits it. -/
theorem build_lockAndCommit : ∃ r text document,
    (build [.lock "candidate".toList, .raw "<commit/>".toList]
      (.ok (some "101".toList))).result = .ok r ∧
    Utf8.decode r.toOctets = .ok text ∧ Document.ofText (.ofText text) = .ok document ∧
    document.root.tag = ⟨rpcName, [⟨⟨[], "message-id".toList⟩, "101".toList⟩]⟩ ∧
    document.root.children.map (·.1) =
      [⟨⟨⟨baseNamespace, "lock".toList⟩, []⟩, [.element ⟨⟨baseNamespace, "target".toList⟩, []⟩
          [.element ⟨⟨baseNamespace, "candidate".toList⟩, []⟩ []]]⟩,
        ⟨⟨⟨baseNamespace, "commit".toList⟩, []⟩, []⟩] := by
  obtain ⟨lock, hlock, hlocked⟩ := exists_isFragment List.getLast?_concat
    (isElement_datastore "lock" "target" (n := "candidate".toList) (by decide) (by decide)
      (by decide))
  obtain ⟨commit, hcommit, hcommitted⟩ := exists_isFragment (s := "<commit/>".toList) (by decide)
    (isElement_emptyElement (by decide : IsName "commit".toList))
  obtain ⟨r, text, document, hr, htext, hdocument, hroot, hchildren⟩ :=
    build_fragments.1 "101".toList [.lock "candidate".toList, .raw "<commit/>".toList]
      [lock, commit] (by decide) (by decide) (.cons hlock (.cons hcommit .nil))
  refine ⟨r, text, document, hr, htext, hdocument, hroot, ?_⟩
  rw [hchildren]
  simp only [List.flatMap_cons, List.flatMap_nil, Element.children, hlocked, hcommitted]
  rfl

end Netconf.Request
