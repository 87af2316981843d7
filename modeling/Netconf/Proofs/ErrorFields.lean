import Netconf.Proofs.ErrorInfo

/-!
# The fields of reported errors

A reply has an error for each child of its root that reports one, and each field of an error is
filled by a fold over the children of its element, where the last child of a name counts. So the
text of a field depends on the children of one local name alone (`text_ofElement`), whatever stands
between them, in whichever namespaces they are, and in which order the others are.
-/

namespace Netconf.Xml

/-- The children of an element with this name in any namespace, in order. -/
def Element.childrenNamed (e : Element) (name : List Char) : List Element :=
  (e.children.filter fun child => child.1.name.base == name).map (·.1)

end Netconf.Xml

namespace Netconf.RpcError

open Netconf.Text Netconf.Xml

/-! ## Names of fields -/

/-- The name of the children that a field is taken from. -/
def Field.name : Field → List Char
  | .type => "error-type".toList
  | .tag => "error-tag".toList
  | .severity => "error-severity".toList
  | .path => "error-path".toList
  | .message => "error-message".toList
  | .info => "error-info".toList

/-- The text in a field of an error. -/
def Field.text (field : Field) (e : RpcError) : List Char :=
  match field with
  | .type => e.type
  | .tag => e.tag
  | .severity => e.severity
  | .path => e.path
  | .message => e.message
  | .info => e.info.getD []

lemma Field.name_injective : Function.Injective Field.name := by
  intro field field' h
  cases field <;> cases field' <;> first | rfl | exact absurd h (by decide)

lemma fieldOfName?_eq_some_iff {name : List Char} {field : Field} :
    fieldOfName? name = some field ↔ field ≠ .info ∧ name = field.name := by
  constructor
  · intro h
    unfold fieldOfName? at h
    split_ifs at h with hname hname hname hname hname
    all_goals
      cases h
      exact ⟨Field.noConfusion, hname⟩
  · rintro ⟨hfield, rfl⟩
    cases field with
    | info => exact absurd rfl hfield
    | _ => rfl

/-- A field is set by itself. -/
lemma text_set (e : RpcError) (field field' : Field) (value : List Char) :
    field.text (e.set field' (some value)) = if field' = field then value else field.text e := by
  cases field <;> cases field' <;> rfl

/-! ## The children that count -/

/-- A child fills the field of its name. -/
lemma text_addChild {field : Field} (hfield : field ≠ .info) (e : RpcError)
    (child : Element × List Char) :
    field.text (e.addChild child.1 child.2) =
      if child.1.name.base == field.name then trim child.1.text else field.text e := by
  unfold addChild
  by_cases hinfo : child.1.name.base = "error-info".toList
  · have hne : ¬ child.1.name.base = field.name := by
      intro hname
      exact hfield (Field.name_injective (hname.symm.trans hinfo))
    rw [if_pos hinfo, text_set, if_neg (Ne.symm hfield), if_neg (by rwa [beq_iff_eq])]
  · rw [if_neg hinfo]
    cases hfound : fieldOfName? child.1.name.base with
    | none =>
      have hne : ¬ child.1.name.base = field.name := by
        intro hname
        rw [fieldOfName?_eq_some_iff.2 ⟨hfield, hname⟩] at hfound
        cases hfound
      rw [if_neg (by rwa [beq_iff_eq])]
    | some field' =>
      obtain ⟨-, hname⟩ := fieldOfName?_eq_some_iff.1 hfound
      dsimp only
      rw [text_set, hname]
      by_cases heq : field' = field
      · rw [if_pos heq, heq, if_pos (beq_self_eq_true _)]
      · rw [if_neg heq, if_neg]
        rw [beq_iff_eq]
        exact fun h => heq (Field.name_injective h)

/-- The text of a field is that of the last child of its name. -/
lemma text_ofElement {field : Field} (hfield : field ≠ .info) (error : Element) :
    field.text (ofElement error) =
      ((error.childrenNamed field.name).getLast?.map fun child => trim child.text).getD [] := by
  have hfold := Reply.foldl_last (text_addChild hfield) error.children blank
  have hblank : field.text blank = [] := by cases field <;> rfl
  rw [ofElement, hfold, hblank, Element.childrenNamed, List.getLast?_map, Option.map_map]
  rfl

/-- Without children of their name there are no details, and only then. -/
lemma info_ofElement_eq_none_iff (error : Element) :
    (ofElement error).info = none ↔ error.childrenNamed Field.info.name = [] := by
  rw [Reply.info_ofElement, Option.map_eq_none_iff, Reply.details?, List.getLast?_eq_none_iff,
    Element.childrenNamed, List.map_eq_nil_iff]
  rfl

/-! ## What the fields do not depend on -/

/-- The children of an error element that have a field, by name and text alone. -/
def fieldChildren (error : Element) : List (List Char × List Char) :=
  (error.children.filter fun child => (fieldOfName? child.1.name.base).isSome).map
    fun child => (child.1.name.base, child.1.text)

/-- Whether the second element has the children of the first, in an order that keeps the children of
each name in order. The text between them does not matter. -/
structure Rearranges (error error' : Element) : Prop where
  perm : (error'.children.map (·.1)).Perm (error.children.map (·.1))
  order : ∀ name, error'.childrenNamed name = error.childrenNamed name

/-- The children of the name of a field are among those that have one. -/
lemma map_text_childrenNamed {field : Field} (hfield : field ≠ .info) (error : Element) :
    (error.childrenNamed field.name).map Element.text =
      ((fieldChildren error).filter fun child => child.1 == field.name).map (·.2) := by
  have hname : ∀ child : Element × List Char,
      (child.1.name.base == field.name && (fieldOfName? child.1.name.base).isSome)
        = (child.1.name.base == field.name) := by
    intro child
    by_cases h : child.1.name.base = field.name
    · rw [fieldOfName?_eq_some_iff.2 ⟨hfield, h⟩, Option.isSome_some, Bool.and_true]
    · rw [beq_eq_false_iff_ne.2 h, Bool.false_and]
  rw [fieldChildren, List.filter_map, List.filter_filter, List.map_map, Element.childrenNamed,
    List.map_map]
  congr 1
  apply List.filter_congr
  intro child _
  exact (hname child).symm

/-- Only the texts of the children of its name matter to a field. -/
lemma text_ofElement_congr {field : Field} (hfield : field ≠ .info) {error error' : Element}
    (h : (error'.childrenNamed field.name).map Element.text
      = (error.childrenNamed field.name).map Element.text) :
    field.text (ofElement error') = field.text (ofElement error) := by
  have htext : ∀ error : Element, field.text (ofElement error)
      = (((error.childrenNamed field.name).map Element.text).getLast?.map trim).getD [] := by
    intro error
    rw [text_ofElement hfield, List.getLast?_map, Option.map_map]
    rfl
  rw [htext, htext, h]

end Netconf.RpcError

namespace Netconf.Reply

open Netconf.Text Netconf.Xml

/-- **A reply has one error for each child of its root that reports one**, in their order, and none
for elements further inside. The text of a field is that in front of the first child of the last
child of its name, without outer blanks, and empty without such a child; the details are missing
exactly if no child is named for them. Only the children that have a field matter to the texts, with
their local names alone, and of their order only that among children of one name. -/
theorem errors_of_parse {s : List Char} {r : Reply} (h : (parse s).result = .ok r) :
    ∃ document, Document.ofText (.ofText (trim s)) = .ok document ∧
      r.errors.length = (document.root.childrenNamed "rpc-error".toList).length ∧
      ∀ (i : ℕ) error, (document.root.childrenNamed "rpc-error".toList)[i]? = some error →
        ∃ e, r.errors[i]? = some e ∧
          (∀ field : RpcError.Field, field ≠ .info → field.text e =
            ((error.childrenNamed field.name).getLast?.map fun child => trim child.text).getD []) ∧
          (e.info = none ↔ error.childrenNamed "error-info".toList = []) ∧
          (∀ error', RpcError.fieldChildren error' = RpcError.fieldChildren error →
            ∀ field : RpcError.Field, field ≠ .info →
              field.text (RpcError.ofElement error') = field.text e) ∧
          ∀ error', RpcError.Rearranges error error' →
            ∀ field : RpcError.Field, field ≠ .info →
              field.text (RpcError.ofElement error') = field.text e := by
  rw [result_parse, ofText_eq_ok_iff] at h
  obtain ⟨document, hdocument, -, rfl⟩ := h
  have herrors : errorsOf document.root
      = (document.root.childrenNamed "rpc-error".toList).map RpcError.ofElement :=
    errorsOf_eq document.root
  refine ⟨document, hdocument, ?_, ?_⟩
  · show (errorsOf document.root).length = _
    rw [herrors, List.length_map]
  · intro i error herror
    refine ⟨RpcError.ofElement error, ?_, ?_, ?_, ?_, ?_⟩
    · show (errorsOf document.root)[i]? = _
      rw [herrors, List.getElem?_map, herror]
      rfl
    · intro field hfield
      exact RpcError.text_ofElement hfield error
    · exact RpcError.info_ofElement_eq_none_iff error
    · intro error' hchildren field hfield
      apply RpcError.text_ofElement_congr hfield
      rw [RpcError.map_text_childrenNamed hfield, RpcError.map_text_childrenNamed hfield, hchildren]
    · intro error' hrearranges field hfield
      apply RpcError.text_ofElement_congr hfield
      rw [hrearranges.order]

/-- A reply whose first error has two tags in different namespaces, with an error inside, and whose
second is in a namespace. Another error stands further inside the reply. -/
def replyWithTwoTags : List Char :=
  ("<rpc-reply xmlns:p='urn:p'><rpc-error><error-tag>a</error-tag><other><rpc-error/></other>" ++
    "<p:error-tag>\n b<!-- c -->d <x/>e</p:error-tag></rpc-error><data><rpc-error/></data>" ++
    "<p:rpc-error><error-info/></p:rpc-error></rpc-reply>").toList

theorem errors_of_parse_replyWithTwoTags :
    ∃ r first second, (parse replyWithTwoTags).result = .ok r ∧ r.errors = [first, second] ∧
      first.tag = "bd".toList ∧ first.severity = [] ∧ first.info = none ∧ second.info ≠ none := by
  obtain ⟨document, hdocument, hfacts⟩ := exists_document_of_map (s := trim replyWithTwoTags)
    (f := fun document => (document.root.name.base,
      (document.root.childrenNamed "rpc-error".toList).map fun error =>
        ((error.childrenNamed "error-tag".toList).map fun child => trim child.text,
          (error.childrenNamed "error-severity".toList).length,
          (error.childrenNamed "error-info".toList).length)))
    (a := (rootName, [(["a".toList, "bd".toList], 0, 0), ([], 0, 1)])) (by decide +kernel)
  obtain ⟨hname, hchildren⟩ := Prod.mk.inj hfacts
  obtain ⟨a, rest, hlist, ha, hrest⟩ := List.map_eq_cons_iff.1 hchildren
  obtain ⟨b, rest, rfl, hb, hnil⟩ := List.map_eq_cons_iff.1 hrest
  obtain rfl := List.map_eq_nil_iff.1 hnil
  simp only [Prod.mk.injEq, List.length_eq_zero_iff] at ha hb
  obtain ⟨htags, hseverity, hinfo⟩ := ha
  obtain ⟨-, -, hdetails⟩ := hb
  have hparse : (parse replyWithTwoTags).result = .ok _ :=
    (result_parse _).trans (ofText_eq_ok_iff.2 ⟨document, hdocument, hname, rfl⟩)
  obtain ⟨document', hdocument', hlength, herrors⟩ := errors_of_parse hparse
  obtain rfl : document = document' := Except.ok.inj (hdocument.symm.trans hdocument')
  rw [hlist] at hlength herrors
  obtain ⟨first, hfirst, htext, hnone, -⟩ := herrors 0 a rfl
  obtain ⟨second, hsecond, -, hsome, -⟩ := herrors 1 b rfl
  refine ⟨_, first, second, hparse, ?_, ?_, ?_, ?_, ?_⟩
  · apply List.ext_getElem?
    intro i
    match i with
    | 0 => exact hfirst
    | 1 => exact hsecond
    | i + 2 => exact List.getElem?_eq_none (by rw [hlength]; exact Nat.le_add_left 2 i)
  · have htag : first.tag = ((a.childrenNamed "error-tag".toList).getLast?.map
        fun child => trim child.text).getD [] := htext .tag RpcError.Field.noConfusion
    rw [htag, ← List.getLast?_map, htags]
    rfl
  · have hempty : first.severity = ((a.childrenNamed "error-severity".toList).getLast?.map
        fun child => trim child.text).getD [] := htext .severity RpcError.Field.noConfusion
    rw [hempty, hseverity]
    rfl
  · exact hnone.2 hinfo
  · intro hmissing
    rw [hsome.1 hmissing] at hdetails
    cases hdetails

end Netconf.Reply
