import Netconf.Proofs.Blank
import Netconf.Proofs.Reply
import Netconf.Proofs.Xml.Printed

/-!
# The details of errors

The details of an error are kept as a document of their own. `document_of_info` says that this
document is read as the element that the server sent, for all errors of all replies: whatever
qualifiers the server used, the ones that are written stand for the same namespaces.
-/

namespace Netconf.Reply

open Netconf.Text Netconf.Xml

/-- The elements that report errors. -/
def errorElements (root : Element) : List Element :=
  (root.children.filter fun child => child.1.name.base == "rpc-error".toList).map (·.1)

/-- Whether a child of an error element has details. -/
def isDetails (child : Element × List Char) : Bool := child.1.name.base == "error-info".toList

/-- The details that count in an error element, with the text behind them. -/
def details? (error : Element) : Option (Element × List Char) :=
  (error.children.filter isDetails).getLast?

lemma errorsOf_eq (root : Element) :
    errorsOf root = (errorElements root).map RpcError.ofElement := by
  rw [errorElements, List.map_map]
  rfl

/-! ## What is kept of an error element -/

/-- No other field has the details. -/
lemma fieldOfName?_ne_info (name : List Char) : RpcError.fieldOfName? name ≠ some .info := by
  unfold RpcError.fieldOfName?
  repeat' split
  all_goals exact fun h => by cases h

lemma info_addChild (e : RpcError) (child : Element × List Char) :
    (e.addChild child.1 child.2).info =
      if isDetails child then some (trim (child.1.toDocument ++ escapeText child.2))
      else e.info := by
  unfold RpcError.addChild isDetails
  split
  · next h =>
    rw [if_pos (beq_iff_eq.2 h)]
    rfl
  · next h =>
    rw [if_neg (fun heq => h (beq_iff_eq.1 heq))]
    split
    · next field hfield =>
      cases field with
      | info => exact absurd hfield (fieldOfName?_ne_info _)
      | _ => rfl
    · rfl

/-- Where each step overwrites what it is about, the last such step counts. -/
lemma foldl_last {α β γ : Type} {step : γ → α → γ} {get : γ → β} {counts : α → Bool} {value : α → β}
    (h : ∀ c a, get (step c a) = if counts a then value a else get c) (l : List α) (c : γ) :
    get (l.foldl step c) = ((l.filter counts).getLast?.map value).getD (get c) := by
  induction l generalizing c with
  | nil => rfl
  | cons a l ih =>
    rw [List.foldl_cons, ih, h, List.filter_cons]
    split
    · rw [List.getLast?_cons]
      cases (l.filter counts).getLast? <;> rfl
    · rfl

/-- The last details of an error element are kept as they are written. -/
lemma info_ofElement (error : Element) :
    (RpcError.ofElement error).info =
      (details? error).map fun child => trim (child.1.toDocument ++ escapeText child.2) := by
  have hblank : RpcError.blank.info = none := rfl
  rw [RpcError.ofElement, foldl_last info_addChild, hblank, details?]
  cases (error.children.filter isDetails).getLast? <;> rfl

lemma getLast?_toDocument (e : Element) : e.toDocument.getLast? = some '>' := by
  rw [Element.toDocument, writeElement, List.getLast?_append]
  split
  · rfl
  · rw [List.getLast?_append]
    rfl

/-- Blanks behind details leave the document that the details are. -/
lemma trim_toDocument (e : Element) {tail : List Char} (htail : IsBlanks tail) :
    trim (e.toDocument ++ escapeText tail) = e.toDocument := by
  have hescape : escapeText tail = tail := by
    have hchar : ∀ c ∈ tail, escapeTextChar c = [c] := by
      intro c hc
      have hne {d : Char} (hd : isBlank d = false) : c ≠ d := ne_of_class (htail c hc) hd
      rw [escapeTextChar, if_neg (hne (by decide)), if_neg (hne (by decide)),
        if_neg (hne (by decide))]
    rw [escapeText, List.flatMap_congr hchar, List.flatMap_singleton']
  have hstart : trimStart e.toDocument = e.toDocument := rfl
  rw [hescape, ← List.nil_append (e.toDocument ++ tail), trim_outer isBlanks_nil htail, trim,
    hstart, trimEnd_of_getLast? (getLast?_toDocument e) (by decide)]

/-! ## All errors of a reply -/

/-- A text that stands for itself is read as a tree with names that can be written. -/
lemma areRead_of_ofText {s : List Char} {document : Document}
    (h : Document.ofText (.ofText s) = .ok document) {nodes : List Node}
    (hnodes : ∀ encoding, @AreRead encoding [.element document.root.tag document.root.content] →
      @AreRead encoding nodes)
    (hnames : Char.ofNat 0 ∈ s.take 2 → Throughout (fun _ => True) Tag.HasName nodes) :
    AreRead nodes := by
  obtain ⟨encoding, heq, hread⟩ := isRead_of_ofText h
  by_cases hunits : Char.ofNat 0 ∈ s.take 2
  · exact areRead_of_hasName (hnodes encoding hread) (hnames hunits)
  · rw [DocumentText.ofText_of_not_mem hunits] at heq
    subst heq
    exact hnodes _ hread

/-- **The details of every error are a document that is read as the element that was sent**: with
the same names in the same namespaces, the same attributes in the same order and the same content.
Only blanks may stand behind the details, no carriage return in them, and their attributes have to
have names. In a text that stands for units of sixteen bits, so do their elements. -/
theorem document_of_info {s : List Char} {r : Reply} (h : (parse s).result = .ok r) :
    ∃ document, Document.ofText (.ofText (trim s)) = .ok document ∧
      r.errors.length = (errorElements document.root).length ∧
      ∀ (i : ℕ) error details tail, (errorElements document.root)[i]? = some error →
        details? error = some (details, tail) → IsBlanks tail →
        Throughout (· ≠ '\r') Tag.NamesAttributes [.element details.tag details.content] →
        (Char.ofNat 0 ∈ (trim s).take 2 →
          Throughout (fun _ => True) Tag.HasName [.element details.tag details.content]) →
        ∃ info read, r.errors[i]?.bind RpcError.info = some info ∧
          Document.ofText (.ofText info) = .ok read ∧ read.root = details := by
  rw [result_parse, ofText_eq_ok_iff] at h
  obtain ⟨document, hdocument, -, rfl⟩ := h
  refine ⟨document, hdocument, by rw [errorsOf_eq, List.length_map], ?_⟩
  intro i error details tail herror hdetails htail hplain hnames
  -- the details are part of a tree that was read
  have hmem : error ∈ errorElements document.root := List.mem_of_getElem? herror
  obtain ⟨child, hchild, rfl⟩ := List.mem_map.1 hmem
  have hdetailsRead : AreRead [.element details.tag details.content] := by
    refine areRead_of_ofText hdocument (fun encoding hread => ?_) hnames
    have hchildRead := hread.content.child (List.mem_of_mem_filter hchild)
    exact hchildRead.content.child (List.mem_of_mem_filter (List.mem_of_getLast? hdetails))
  obtain ⟨read, hdocument', hroot⟩ := ofText_toDocument hdetailsRead hplain
  refine ⟨details.toDocument, read, ?_, hdocument', hroot⟩
  rw [errorsOf_eq, List.getElem?_map, herror]
  change (RpcError.ofElement child.1).info = _
  rw [info_ofElement, hdetails, Option.map_some, trim_toDocument details htail]

/-- The facts about a text with one error that can be found out. -/
def firstDetails? (s : List Char) : Option (List Char × Option (Element × List Char)) :=
  (Document.ofText (.ofText (trim s))).toOption.map fun document =>
    (document.root.name.base, (errorElements document.root)[0]?.bind details?)

/-- What is found in the reply that a text is. -/
lemma exists_of_firstDetails? {s : List Char} {p : Element × List Char → Prop} [DecidablePred p]
    (h : (firstDetails? s).map (fun found => (found.1, found.2.map fun d => decide (p d))) =
      some (rootName, some true)) :
    ∃ r document error details tail, (parse s).result = .ok r ∧
      Document.ofText (.ofText (trim s)) = .ok document ∧
      (errorElements document.root)[0]? = some error ∧ details? error = some (details, tail) ∧
      p (details, tail) := by
  rw [firstDetails?, Option.map_map] at h
  obtain ⟨document, hdocument, hfound⟩ := exists_document_of_map h
  obtain ⟨hname, hfound⟩ := Prod.mk.inj hfound
  obtain ⟨⟨details, tail⟩, hdetails, hp⟩ := Option.map_eq_some_iff.1 hfound
  obtain ⟨error, herror, hdetails⟩ := Option.bind_eq_some_iff.1 hdetails
  exact ⟨_, document, error, details, tail,
    (result_parse s).trans (ofText_eq_ok_iff.2 ⟨document, hdocument, hname, rfl⟩), hdocument,
    herror, hdetails, of_decide_eq_true hp⟩

/-- A reply with an error whose details use several namespaces. -/
def replyWithDetails : List Char :=
  ("<rpc-reply xmlns='urn:ietf:params:xml:ns:netconf:base:1.0' xmlns:p='urn:p'><rpc-error>" ++
    "<error-info a='&lt;1&gt;' p:a='x&#10;y'><p:bad xmlns='q'>a &amp; <b/>]]</p:bad></error-info>" ++
    "\n</rpc-error></rpc-reply>").toList

/-- Whether a text is a reply whose first error has details that meet all conditions and are read
as they were sent. -/
def KeepsDetails (s : List Char) : Prop :=
  ∃ r document error details tail, (parse s).result = .ok r ∧
    Document.ofText (.ofText (trim s)) = .ok document ∧
    (errorElements document.root)[0]? = some error ∧ details? error = some (details, tail) ∧
    IsBlanks tail ∧
    Throughout (· ≠ '\r') Tag.NamesAttributes [.element details.tag details.content] ∧
    Throughout (fun _ => True) Tag.HasName [.element details.tag details.content] ∧
    ∃ info read, r.errors[0]?.bind RpcError.info = some info ∧
      Document.ofText (.ofText info) = .ok read ∧ read.root = details

/-- So it is for the reply as it stands and in units of sixteen bits. -/
theorem document_of_info_replyWithDetails :
    KeepsDetails replyWithDetails ∧ KeepsDetails (inUnits replyWithDetails) := by
  have hkeeps : ∀ s ∈ [replyWithDetails, inUnits replyWithDetails], KeepsDetails s := by
    intro s hs
    obtain ⟨r, document, error, details, tail, hparse, hdocument, herror, hdetails, htail, hplain,
        hnames⟩ := exists_of_firstDetails? (s := s) (p := fun d => IsBlanks d.2 ∧
          Throughout (· ≠ '\r') Tag.NamesAttributes [.element d.1.tag d.1.content] ∧
          Throughout (fun _ => True) Tag.HasName [.element d.1.tag d.1.content]) (by
        rcases List.mem_pair.1 hs with heq | heq
        · rw [heq]
          decide +kernel
        · rw [heq]
          decide +kernel)
    obtain ⟨document', hdocument', -, hinfo⟩ := document_of_info hparse
    obtain rfl : document = document' := Except.ok.inj (hdocument.symm.trans hdocument')
    exact ⟨r, document, error, details, tail, hparse, hdocument, herror, hdetails, htail, hplain,
      hnames, hinfo 0 error details tail herror hdetails htail hplain fun _ => hnames⟩
  exact ⟨hkeeps _ List.mem_cons_self, hkeeps _ (List.mem_cons_of_mem _ List.mem_cons_self)⟩

/-- A reply with an error whose details have an attribute without a name: `p:1` may be declared,
but not written. -/
def replyWithNumber : List Char :=
  ("<!DOCTYPE rpc-reply [<!ATTLIST error-info p:1 CDATA \"v\">]><rpc-reply xmlns:p=\"u\">" ++
    "<rpc-error><error-info/></rpc-error></rpc-reply>").toList

/-- A reply in units of sixteen bits with an error whose details hold an element without a name: the
octets of `aµ` and a zero are two units, the second of which may be written in such a text only. -/
def wideReplyWithMicro : List Char :=
  inUnits "<rpc-reply><rpc-error><error-info><".toList ++ ['a', 'µ', Char.ofNat 0] ++
    inUnits "/></error-info></rpc-error></rpc-reply>".toList

/-- Whether a text is a reply whose first error has details that are plain but not written as a
document. -/
def LosesDetails (s : List Char) : Prop :=
  ∃ r document error details tail info, (parse s).result = .ok r ∧
    Document.ofText (.ofText (trim s)) = .ok document ∧
    (errorElements document.root)[0]? = some error ∧ details? error = some (details, tail) ∧
    IsBlanks tail ∧
    Throughout (· ≠ '\r') (fun _ => True) [.element details.tag details.content] ∧
    r.errors[0]?.bind RpcError.info = some info ∧
    ∀ read, Document.ofText (.ofText info) ≠ .ok read

/-- What is found out about a text settles that its details are lost. -/
lemma losesDetails_of_firstDetails? {s : List Char}
    (h : (firstDetails? s).map (fun found => (found.1, found.2.map fun d =>
      decide (IsBlanks d.2 ∧
        Throughout (· ≠ '\r') (fun _ => True) [.element d.1.tag d.1.content] ∧
        (Document.ofText (.ofText d.1.toDocument)).toOption.isNone = true))) =
      some (rootName, some true)) : LosesDetails s := by
  obtain ⟨r, document, error, details, tail, hparse, hdocument, herror, hdetails, htail, hplain,
    hinfo⟩ := exists_of_firstDetails? h
  refine ⟨r, document, error, details, tail, details.toDocument, hparse, hdocument, herror,
    hdetails, htail, hplain, ?_, ?_⟩
  · obtain ⟨document', hdocument', -, rfl⟩ :=
      ofText_eq_ok_iff.1 ((result_parse _).symm.trans hparse)
    obtain rfl : document = document' := Except.ok.inj (hdocument.symm.trans hdocument')
    rw [errorsOf_eq, List.getElem?_map, herror]
    change (RpcError.ofElement error).info = _
    rw [info_ofElement, hdetails, Option.map_some, trim_toDocument details htail]
  · intro read hread
    rw [hread] at hinfo
    cases hinfo

/-- Where an attribute has no name, or an element has none, the details are no document. -/
theorem info_of_unwritableName :
    LosesDetails replyWithNumber ∧ LosesDetails wideReplyWithMicro :=
  ⟨losesDetails_of_firstDetails? (by decide +kernel),
    losesDetails_of_firstDetails? (by decide +kernel)⟩

end Netconf.Reply
