import Netconf.Proofs.Xml.PlainDocument
import Netconf.Proofs.Xml.Qualifiers

/-!
# Elements that are written and read again

The text that `Element.toDocument` writes fits the grammar of content: what is escaped is read as
what it was (`isValue_escapeValue`, `isContent_writeContent`), and the start tags mean what they
were written for (`exists_isTag_written`). So an element is read back as it was
(`ofText_toDocument`), as long as its attributes have names and its text has no carriage return,
which would be read as a line feed.
-/

namespace Netconf.Xml

open Netconf.Outcome Netconf.Text

/-! ## Escaped characters -/

lemma takes_amp : Takes Reference.scan id "amp;".toList (.entity "amp".toList) :=
  takes_entity (n := "amp".toList) (by decide)

lemma takes_lt : Takes Reference.scan id "lt;".toList (.entity "lt".toList) :=
  takes_entity (n := "lt".toList) (by decide)

lemma takes_gt : Takes Reference.scan id "gt;".toList (.entity "gt".toList) :=
  takes_entity (n := "gt".toList) (by decide)

lemma takes_quot : Takes Reference.scan id "quot;".toList (.entity "quot".toList) :=
  takes_entity (n := "quot".toList) (by decide)

/-- A character of a value is read as what it was before it was escaped. -/
lemma IsValue.escapeValueChar {c : Char} {w v : List Char} (h : IsValue w v)
    (hc : isXmlChar c = true) : IsValue (escapeValueChar c ++ w) (c :: v) := by
  have number {u : List Char} {n : ℕ} (hu : Reference.scan u = .ok (.character n, []))
      (hn : charOfNumber? n = some c) : IsValue ('&' :: u ++ w) (c :: v) := by
    obtain ⟨u', rfl, htakes⟩ := takes_of_scanReference hu
    rw [List.append_nil]
    exact h.reference (r := .character n) hn htakes
  unfold Xml.escapeValueChar
  split
  · next heq => exact heq ▸ h.reference (r := .entity "quot".toList) rfl takes_quot
  split
  · next heq => exact number (u := "#13;".toList) rfl (heq ▸ rfl)
  split
  · next heq => exact number (u := "#10;".toList) rfl (heq ▸ rfl)
  split
  · next heq => exact number (u := "#09;".toList) rfl (heq ▸ rfl)
  unfold escapeTextChar
  split
  · next heq => exact heq ▸ h.reference (r := .entity "amp".toList) rfl takes_amp
  split
  · next heq => exact heq ▸ h.reference (r := .entity "lt".toList) rfl takes_lt
  split
  · next heq => exact heq ▸ h.reference (r := .entity "gt".toList) rfl takes_gt
  · refine h.char ?_ hc
    simp_all

/-- **A value that is escaped is read as it was.** -/
theorem isValue_escapeValue {v : List Char} (h : IsXmlText v) : IsValue (escapeValue v) v := by
  induction v with
  | nil => exact isValue_nil
  | cons c v ih =>
    rw [isXmlText_cons] at h
    rw [escapeValue, List.flatMap_cons]
    exact (ih h.2).escapeValueChar h.1

/-- A character of text is read as what it was before it was escaped. -/
lemma IsContent.escapeTextChar {σ : Scope} {c : Char} {u : List Char} {items : List Node}
    (h : IsContent (Dtd.empty false) σ u items) (hc : isXmlChar c = true) (hreturn : c ≠ '\r')
    (hend : ¬ "]>".toList <+: u) :
    IsContent (Dtd.empty false) σ (escapeTextChar c ++ u) (.char c :: items) := by
  unfold Xml.escapeTextChar
  split
  · next heq =>
    exact heq ▸ .reference (r := .entity "amp".toList) (takes_markup_reference takes_amp) rfl h
  split
  · next heq =>
    exact heq ▸ .reference (r := .entity "lt".toList) (takes_markup_reference takes_lt) rfl h
  split
  · next heq =>
    exact heq ▸ .reference (r := .entity "gt".toList) (takes_markup_reference takes_gt) rfl h
  · next hamp hlt _ =>
    change IsContent (Dtd.empty false) σ (c :: u) (.char c :: items)
    refine .char ?_ hreturn h
    -- only the end of a character data section could end text in front of the character
    have hcdata : "]]>".toList.isPrefixOf (c :: u) = false := by
      rw [Bool.eq_false_iff, Ne, List.isPrefixOf_iff_prefix]
      exact fun h => hend (List.cons_prefix_cons.1 h).2
    rw [endsText, beq_false_of_ne hlt, beq_false_of_ne hamp, hc, hcdata]
    rfl

/-! ## Start tags -/

/-- The declaration of a qualifier. -/
def declaration (q : List Char × List Char) : WrittenAttribute :=
  ⟨"xmlns:".toList ++ q.2, escapeValue q.1, q.1⟩

/-- An attribute with the qualifier of its namespace. -/
def Qualifiers.attribute (qs : Qualifiers) (a : Attribute) : WrittenAttribute :=
  ⟨qs.write a.name, escapeValue a.value, a.value⟩

/-- Whether all attributes of a tag have names. -/
def Tag.NamesAttributes (tag : Tag) : Prop := ∀ a ∈ tag.attributes, IsName a.name.base

instance : DecidablePred Tag.NamesAttributes := fun _ => List.decidableBAll _ _

/-- Whether the element of a tag has a name. A document in units of sixteen bits may call elements
something else as well. -/
def Tag.HasName (tag : Tag) : Prop := IsName tag.name.base

instance : DecidablePred Tag.HasName := fun _ => inferInstanceAs (Decidable (IsName _))

/-- What was read in any encoding can be relied on in a text that stands for itself, if all elements
have names. -/
lemma areRead_of_hasName {encoding : Encoding} {nodes : List Node} (h : @AreRead encoding nodes)
    (hnames : Throughout (fun _ => True) Tag.HasName nodes) : @AreRead .narrow nodes := by
  induction h with
  | nil => exact .nil
  | char hc _ ih =>
    cases hnames with
    | char _ hnames => exact .char hc (ih hnames)
  | element ht _ _ ihinner ih =>
    cases hnames with
    | element hname hnamesInner hnames =>
      obtain ⟨hspace, -, hattributes, hnodup⟩ := ht
      have htag := @Tag.IsRead.mk .narrow _ hspace hname hattributes hnodup
      exact .element htag (ihinner hnamesInner) (ih hnames)

lemma isWritten_declaration {qs : Qualifiers} (h : qs.IsProper) {q : List Char × List Char}
    (hq : q ∈ qs) : (declaration q).IsWritten where
  name := Or.inr ⟨"xmlns".toList, q.2, by decide, (h.qualifier q hq).1, rfl⟩
  value := isValue_escapeValue (h.space q hq).1.text

lemma isWritten_attribute {qs : Qualifiers} (h : qs.IsProper) {a : Attribute} (ha : a.IsRead)
    (hcovers : qs.Covers a.name) (hbase : IsName a.name.base) : (qs.attribute a).IsWritten where
  name := (h.writes hcovers).isQName hbase
  value := isValue_escapeValue ha.value

lemma declaredQualifier?_declaration (q : List Char × List Char) :
    declaredQualifier? (declaration q).name = some q.2 := by
  have hne : "xmlns:".toList ++ q.2 ≠ "xmlns".toList := by
    intro heq
    have hcolon : ':' ∈ "xmlns:".toList ++ q.2 := List.mem_append_left _ (by decide)
    rw [heq] at hcolon
    exact absurd hcolon (by decide)
  rw [declaration, declaredQualifier?, if_neg hne,
    if_pos (List.isPrefixOf_iff_prefix.2 (List.prefix_append _ _))]
  rfl

/-- A proper qualifier can be declared in any scope. -/
lemma bind_declaration {qs : Qualifiers} (h : qs.IsProper) {q : List Char × List Char}
    (hq : q ∈ qs) (σ : Scope) : σ.bind q.2 q.1 = .ok ((q.2, q.1) :: σ) := by
  obtain ⟨-, hxml, hxmlns⟩ := h.qualifier q hq
  obtain ⟨hspace, hne, huri⟩ := h.space q hq
  unfold Scope.bind
  rw [if_neg fun hc => hne hc.1, if_neg hxmlns, if_neg hspace.noBrace, if_neg fun hc => hxml hc.1,
    if_neg fun hc => hc.2.elim huri hspace.notReserved]

/-- Declarations go into the scope, one after the other. -/
lemma addAll_declarations {qs ds : Qualifiers} (h : qs.IsProper) (hds : ∀ q ∈ ds, q ∈ qs)
    (hnodup : (ds.map (·.2)).Nodup) {r : TagReading}
    (hseen : ∀ q ∈ ds, (declaration q).name ∉ r.seen) (rest : List (List Char × List Char)) :
    r.addAll ((ds.map declaration).map (fun a => (a.name, a.value)) ++ rest) =
      TagReading.addAll ⟨(ds.map fun q => (declaration q).name).reverse ++ r.seen, r.attributes,
        r.scope.declare ds⟩ rest := by
  induction ds generalizing r with
  | nil => rfl
  | cons q ds ih =>
    rw [List.forall_mem_cons] at hds hseen
    rw [List.map_cons, List.nodup_cons] at hnodup
    have hadd : r.add (declaration q).name (declaration q).value =
        .ok ⟨(declaration q).name :: r.seen, r.attributes, (q.2, q.1) :: r.scope⟩ := by
      unfold TagReading.add
      rw [declaredQualifier?_declaration]
      exact congrArg (· >>= _) (bind_declaration h hds.1 r.scope)
    have hfurther : ∀ q' ∈ ds, (declaration q').name ∉ (declaration q).name :: r.seen := by
      intro q' hq' hmem
      rcases List.mem_cons.1 hmem with heq | hmem
      · exact hnodup.1 (List.append_cancel_left heq ▸ List.mem_map_of_mem hq')
      · exact hseen.2 q' hq' hmem
    rw [List.map_cons, List.map_cons, List.cons_append, TagReading.addAll,
      if_neg fun hmem => hseen.1 (List.contains_iff_mem.1 hmem), hadd, ok_bind,
      ih hds.2 hnodup.2 hfurther]
    simp only [Scope.declare, List.map_cons, List.reverse_cons, List.append_assoc,
      List.singleton_append]

/-- Attributes that are no declarations are taken up as they are. -/
lemma exists_addAll_attributes {as : List (List Char × List Char)}
    (hdeclared : ∀ a ∈ as, declaredQualifier? a.1 = none) (hnodup : (as.map (·.1)).Nodup)
    {r : TagReading} (hseen : ∀ a ∈ as, a.1 ∉ r.seen) :
    ∃ seen, r.addAll as = .ok ⟨seen, r.attributes ++ as, r.scope⟩ := by
  induction as generalizing r with
  | nil => exact ⟨r.seen, by rw [List.append_nil]; rfl⟩
  | cons a as ih =>
    rw [List.forall_mem_cons] at hdeclared hseen
    rw [List.map_cons, List.nodup_cons] at hnodup
    have hfurther : ∀ a' ∈ as, a'.1 ∉ a.1 :: r.seen := by
      intro a' ha' hmem
      rcases List.mem_cons.1 hmem with heq | hmem
      · exact hnodup.1 (heq ▸ List.mem_map_of_mem ha')
      · exact hseen.2 a' ha' hmem
    obtain ⟨seen, hrest⟩ := ih hdeclared.2 hnodup.2
      (r := { r with seen := a.1 :: r.seen, attributes := r.attributes ++ [(a.1, a.2)] }) hfurther
    refine ⟨seen, ?_⟩
    rw [TagReading.addAll, if_neg fun hmem => hseen.1 (List.contains_iff_mem.1 hmem),
      TagReading.add, hdeclared.1]
    exact hrest.trans (by rw [List.append_assoc, List.singleton_append])

/-- Attributes are looked up as what they were written for. -/
lemma attributes_write {qs : Qualifiers} (h : qs.IsProper) {σ : Scope} (hσ : σ.Declares qs)
    {as : List Attribute} (hcovers : ∀ a ∈ as, qs.Covers a.name)
    (hbase : ∀ a ∈ as, IsName a.name.base) (hnodup : (as.map (·.name)).Nodup)
    {earlier : List Name} (hearlier : ∀ a ∈ as, a.name ∉ earlier) :
    σ.attributes earlier (as.map fun a => (qs.write a.name, a.value)) = .ok as := by
  induction as generalizing earlier with
  | nil => rfl
  | cons a as ih =>
    rw [List.forall_mem_cons] at hcovers hbase hearlier
    rw [List.map_cons, List.nodup_cons] at hnodup
    have hfurther : ∀ a' ∈ as, a'.name ∉ a.name :: earlier := by
      intro a' ha' hmem
      rcases List.mem_cons.1 hmem with heq | hmem
      · exact hnodup.1 (heq ▸ List.mem_map_of_mem ha')
      · exact hearlier.2 a' ha' hmem
    rw [List.map_cons, Scope.attributes, attributeName_write (h.writes hcovers.1) hbase.1 hσ,
      ok_bind, if_neg fun hmem => hearlier.1 (List.contains_iff_mem.1 hmem),
      ih hcovers.2 hbase.2 hnodup.2 hfurther]
    rfl

/-- **A start tag that is written means what it was written for**, where its declarations and
those around it declare the qualifiers. -/
theorem exists_isTag_written {qs ds : Qualifiers} (h : qs.IsProper) (hds : ∀ q ∈ ds, q ∈ qs)
    (hdsNodup : (ds.map (·.2)).Nodup) {σ : Scope} (hσ : (σ.declare ds).Declares qs) {tag : Tag}
    (htag : tag.IsRead) (hcovers : qs.CoversTag tag) (hnames : tag.NamesAttributes)
    {sp : List Char} (hsp : IsSpaces sp) (e : Bool) :
    ∃ raw, IsTag (Dtd.empty false) σ
      ('<' :: (qs.write tag.name ++ ((ds.map declaration ++ tag.attributes.map qs.attribute).flatMap
        (fun a => attributeText a.name a.text) ++ (sp ++ tagEnd e))))
      ⟨qs.write tag.name, raw, e⟩ tag (σ.declare ds) := by
  rw [Qualifiers.CoversTag, List.forall_mem_cons, List.forall_mem_map] at hcovers
  obtain ⟨hname, hattributes⟩ := hcovers
  have hwrites : ∀ a ∈ tag.attributes, qs.Writes a.name (qs.write a.name) :=
    fun a ha => h.writes (hattributes a ha)
  -- the attributes behind the declarations
  have hdeclared : ∀ a ∈ tag.attributes.map (fun a => (qs.write a.name, a.value)),
      declaredQualifier? a.1 = none := by
    rw [List.forall_mem_map]
    exact fun a ha => declaredQualifier?_write (hwrites a ha) (hnames a ha)
      (htag.attributes a ha).notDeclaration
  have hdistinct :
      ((tag.attributes.map (fun a => (qs.write a.name, a.value))).map (·.1)).Nodup := by
    rw [List.map_map]
    refine List.Nodup.map_on ?_ (List.Nodup.of_map _ htag.nodup)
    intro a ha a' ha' heq
    -- names that are written alike are looked up alike
    have hlookup := attributeName_write (hwrites a ha) (hnames a ha) hσ
    have hlookup' := attributeName_write (hwrites a' ha') (hnames a' ha') hσ
    change qs.write a.name = qs.write a'.name at heq
    rw [heq, hlookup'] at hlookup
    exact List.inj_on_of_nodup_map htag.nodup ha ha' (Except.ok.inj hlookup).symm
  obtain ⟨seen, hall⟩ := exists_addAll_attributes hdeclared hdistinct
    (r := ⟨(ds.map fun q => (declaration q).name).reverse ++ [], [], σ.declare ds⟩) (by
      intro a ha hmem
      rw [List.append_nil, List.mem_reverse] at hmem
      obtain ⟨q, -, hq⟩ := List.mem_map.1 hmem
      have := hdeclared a ha
      rw [← hq, declaredQualifier?_declaration] at this
      cases this)
  have hreading : TagReading.addAll ⟨[], [], σ⟩
      ((ds.map declaration ++ tag.attributes.map qs.attribute).map fun a => (a.name, a.value)) =
      .ok ⟨seen, tag.attributes.map (fun a => (qs.write a.name, a.value)), σ.declare ds⟩ := by
    have hempty : ∀ q ∈ ds, (declaration q).name ∉ ([] : List (List Char)) :=
      fun q _ => List.not_mem_nil
    rw [List.map_append, List.map_map (l := tag.attributes),
      addAll_declarations h hds hdsNodup hempty]
    exact hall
  have hfinish : TagReading.finish (Dtd.empty false) (qs.write tag.name)
      ⟨seen, tag.attributes.map (fun a => (qs.write a.name, a.value)), σ.declare ds⟩ =
      .ok (tag, σ.declare ds) := by
    have hattributes' : (σ.declare ds).attributes []
        (tag.attributes.map fun a => (qs.write a.name, a.value)) = .ok tag.attributes :=
      attributes_write h hσ hattributes hnames htag.nodup fun a _ => List.not_mem_nil
    have hname' := elementName_write (h.writes hname) htag.base hσ
    unfold TagReading.finish
    rw [Dtd.empty, TagReading.addDeclared, ok_bind, hattributes', ok_bind, hname', ok_bind]
    rfl
  refine isTag_of_attributes ((h.writes hname).isQName htag.base) ?_ hsp e hreading hfinish
  intro a ha
  rcases List.mem_append.1 ha with ha | ha
  · obtain ⟨q, hq, rfl⟩ := List.mem_map.1 ha
    exact isWritten_declaration h (hds q hq)
  · obtain ⟨b, hb, rfl⟩ := List.mem_map.1 ha
    exact isWritten_attribute h (htag.attributes b hb) (hattributes b hb) (hnames b hb)

/-! ## Content -/

/-- Content without characters and elements is all that is written as nothing. -/
lemma writeContent_eq_nil {qs : Qualifiers} {nodes : List Node} :
    writeNode.writeContent qs nodes = [] ↔ nodes = [] := by
  constructor
  · intro h
    cases nodes with
    | nil => rfl
    | cons node nodes =>
      obtain ⟨hnode, -⟩ := List.append_eq_nil_iff.1 h
      cases node with
      | char c =>
        rw [writeNode, escapeTextChar] at hnode
        repeat' split at hnode
        all_goals cases hnode
      | element tag inner => cases hnode
  · rintro rfl
    rfl

/-- Every closing bracket in content that is written belongs to a tag, so none comes first. -/
lemma head?_writeContent (qs : Qualifiers) (nodes : List Node) :
    (writeNode.writeContent qs nodes).head? ≠ some '>' := by
  cases nodes with
  | nil => exact fun h => by cases h
  | cons node nodes =>
    cases node with
    | char c =>
      rw [writeNode.writeContent, writeNode, escapeTextChar]
      repeat' split
      · exact fun h => absurd (Option.some.inj h) (by decide)
      · exact fun h => absurd (Option.some.inj h) (by decide)
      · exact fun h => absurd (Option.some.inj h) (by decide)
      · next hgt => exact fun h => hgt (Option.some.inj h)
    | element tag inner => exact fun h => absurd (Option.some.inj h) (by decide)

lemma not_isPrefix_writeContent (qs : Qualifiers) (nodes : List Node) :
    ¬ "]>".toList <+: writeNode.writeContent qs nodes := by
  rintro ⟨r, hr⟩
  cases nodes with
  | nil => cases hr
  | cons node nodes =>
    cases node with
    | char c =>
      rw [writeNode.writeContent, writeNode, escapeTextChar] at hr
      repeat' split at hr
      · cases hr
      · cases hr
      · cases hr
      · -- the bracket would be the first character of what follows
        have htail : '>' :: r = writeNode.writeContent qs nodes := (List.cons.inj hr).2
        exact head?_writeContent qs nodes (htail ▸ rfl)
    | element tag inner => cases hr

/-- The declarations of qualifiers as they are written. -/
abbrev Qualifiers.text (ds : Qualifiers) : List Char :=
  ds.flatMap fun q => writeAttribute ("xmlns:".toList ++ q.2) q.1

lemma flatMap_attributeText (qs ds : Qualifiers) (tag : Tag) :
    (ds.map declaration ++ tag.attributes.map qs.attribute).flatMap
      (fun a => attributeText a.name a.text) = ds.text ++ writeAttributes qs tag := by
  rw [List.flatMap_append, List.flatMap_map, List.flatMap_map]
  rfl

/-- An element that is written is an element, if its content is content. -/
lemma isElement_writeElement {qs ds : Qualifiers} (h : qs.IsProper) (hds : ∀ q ∈ ds, q ∈ qs)
    (hnodup : (ds.map (·.2)).Nodup) {σ : Scope} (hσ : (σ.declare ds).Declares qs) {tag : Tag}
    (htag : tag.IsRead) (hcovers : qs.CoversTag tag) (hnames : tag.NamesAttributes)
    {inner : List Node}
    (hinner : IsContent (Dtd.empty false) (σ.declare ds) (writeNode.writeContent qs inner) inner) :
    IsElement (Dtd.empty false) σ
      (writeElement qs tag ds.text (writeNode.writeContent qs inner)) ⟨tag, inner⟩ := by
  have hsp : IsSpaces [' '] := fun c hc => List.mem_singleton.1 hc ▸ rfl
  by_cases hnil : writeNode.writeContent qs inner = []
  · obtain ⟨raw, hraw⟩ := exists_isTag_written h hds hnodup hσ htag hcovers hnames hsp true
    have hempty := IsElement.empty hraw rfl
    rw [flatMap_attributeText] at hempty
    rw [writeElement, if_pos hnil, writeContent_eq_nil.1 hnil]
    simpa [tagEnd] using hempty
  · obtain ⟨raw, hraw⟩ :=
      exists_isTag_written h hds hnodup hσ htag hcovers hnames isSpaces_nil false
    have henclosed := IsElement.enclosed hraw rfl hinner isSpaces_nil
    rw [flatMap_attributeText] at henclosed
    rw [writeElement, if_neg hnil]
    simpa [tagEnd] using henclosed

/-- **Content that is written is read as it was**, where the qualifiers are declared. -/
theorem isContent_writeContent {qs : Qualifiers} (h : qs.IsProper) {σ : Scope}
    (hσ : σ.Declares qs) {nodes : List Node} (hread : AreRead nodes)
    (hcovers : qs.CoversContent nodes) (hplain : Throughout (· ≠ '\r') Tag.NamesAttributes nodes) :
    IsContent (Dtd.empty false) σ (writeNode.writeContent qs nodes) nodes := by
  induction hread with
  | nil => exact .nil
  | @char c nodes hc _ ih =>
    cases hcovers with
    | char _ hcovers =>
      cases hplain with
      | char hreturn hplain =>
        exact (ih hcovers hplain).escapeTextChar hc hreturn (not_isPrefix_writeContent qs nodes)
  | @element tag inner nodes ht _ _ ihinner ih =>
    cases hcovers with
    | element hcoversTag hcoversInner hcovers =>
      cases hplain with
      | element hnames hplainInner hplain =>
        have hinner := ihinner hcoversInner hplainInner
        have hnone : ∀ q ∈ ([] : Qualifiers), q ∈ qs := fun q hq => absurd hq List.not_mem_nil
        exact (isElement_writeElement h hnone List.nodup_nil hσ ht hcoversTag hnames
          hinner).content (ih hcovers hplain)

/-! ## Documents -/

/-- **An element that is written as a document is read as the element it was.** -/
theorem ofText_toDocument {e : Element} (hread : AreRead [.element e.tag e.content])
    (hplain : Throughout (· ≠ '\r') Tag.NamesAttributes [.element e.tag e.content]) :
    ∃ document, Document.ofText (.ofText e.toDocument) = .ok document ∧ document.root = e := by
  obtain ⟨hextends, hcovers⟩ := Qualifiers.extends_addContent hread []
  have hproper := (hextends.isGiven Qualifiers.isGiven_nil).isProper
  -- the qualifiers are declared in another order than they were given in
  obtain ⟨ds, hds⟩ : ∃ ds : Qualifiers, ds = (Qualifiers.addNode [] (.element e.tag
      e.content)).mergeSort fun a b => sortsNoLater a.2 b.2 := ⟨_, rfl⟩
  have hperm : List.Perm ds (Qualifiers.addNode [] (.element e.tag e.content)) :=
    hds ▸ List.mergeSort_perm _ _
  have hdeclares := declares_declare (hproper.perm hperm)
  have hscope : (Scope.initial.declare ds).Declares
      (Qualifiers.addNode [] (.element e.tag e.content)) :=
    ⟨fun q hq => hdeclares.given q (hperm.mem_iff.2 hq), hdeclares.xml, hdeclares.unqualified⟩
  cases hread with
  | element htag hreadInner _ =>
    cases hcovers with
    | element hcoversTag hcoversInner _ =>
      cases hplain with
      | element hnames hplainInner _ =>
        have hinner := isContent_writeContent hproper hscope hreadInner hcoversInner hplainInner
        have helement := isElement_writeElement hproper (fun q hq => hperm.mem_iff.1 hq)
          (hproper.perm hperm).nodup hscope htag hcoversTag hnames hinner
        obtain ⟨document, hdocument, hroot⟩ :=
          ofBody_of_isElement isOpening_nil isSpaces_nil helement isSpaces_nil
        obtain ⟨c, r, htext, hc⟩ := helement.starts
        rw [List.nil_append, List.nil_append, List.append_nil] at hdocument
        refine ⟨document, ?_, hroot⟩
        rw [← hdocument]
        have htoDocument : e.toDocument = '<' :: c :: r := by
          rw [← htext, Element.toDocument, hds]
          rfl
        rw [htoDocument, htext, ofText_bracket hc]

end Netconf.Xml
