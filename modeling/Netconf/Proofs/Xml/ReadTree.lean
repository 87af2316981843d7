import Netconf.Proofs.Xml.Characters
import Netconf.Proofs.Xml.Document
import Netconf.Proofs.Xml.Tree
import Netconf.Proofs.Xml.WrittenTag

/-!
# Trees that were read

What can be relied on in the tree of any document (`isRead_of_ofText`): elements have names,
namespaces are such that they can be declared, no attribute stands twice at one tag or looks like
a declaration of a namespace, and all values and texts are of characters that a document may hold.
-/

namespace Netconf.Xml

open Netconf.Outcome

/-! ## Namespaces -/

/-- Whether a text can be a namespace, or stands for none. -/
structure IsNamespace (uri : List Char) : Prop where
  text : IsXmlText uri
  noBrace : '\x7d' ∉ uri
  notReserved : uri ≠ xmlnsUri

lemma isNamespace_nil : IsNamespace [] := ⟨isXmlText_nil, List.not_mem_nil, by decide⟩

/-- Whether all qualifiers of a scope stand for namespaces. -/
def Scope.IsRead (σ : Scope) : Prop := ∀ b ∈ σ, IsNamespace b.2

lemma isRead_initial : Scope.initial.IsRead := by
  intro b hb
  rw [List.mem_singleton.1 hb]
  exact ⟨by decide, by decide, by decide⟩

lemma Scope.IsRead.bind {σ σ' : Scope} (hσ : σ.IsRead) {qualifier uri : List Char}
    (huri : IsXmlText uri) (h : σ.bind qualifier uri = .ok σ') : σ'.IsRead := by
  unfold Scope.bind at h
  split at h
  · cases h
  split at h
  · cases h
  split at h
  · cases h
  split at h
  · cases h
  split at h
  · cases h
  · next hbrace hxml hreserved =>
    cases h
    refine List.forall_mem_cons.2 ⟨⟨huri, hbrace, ?_⟩, hσ⟩
    -- the reserved namespace is neither that of `xml` nor free for another qualifier
    rintro rfl
    by_cases hq : qualifier = "xml".toList
    · exact hxml ⟨hq, by decide⟩
    · exact hreserved ⟨hq, Or.inr rfl⟩

/-- What a qualifier stands for is a namespace. -/
lemma Scope.IsRead.uri? {σ : Scope} (hσ : σ.IsRead) {qualifier uri : List Char}
    (h : σ.uri? qualifier = some uri) : IsNamespace uri ∧ uri ≠ [] := by
  unfold Scope.uri? at h
  split at h
  · next q uri' hfind =>
    split at h
    · cases h
    · next hne =>
      cases h
      exact ⟨hσ _ (List.mem_of_find?_eq_some hfind), hne⟩
  · cases h

/-! ## Attributes -/

/-- Whether an attribute can be written at a tag without being taken for a declaration. -/
structure Attribute.IsRead (a : Attribute) : Prop where
  space : IsNamespace a.name.space
  notDeclaration : a.name.space = [] → a.name.base ≠ "xmlns".toList
  value : IsXmlText a.value

/-- What can be relied on while the attributes of a tag are taken up. -/
structure TagReading.IsRead (r : TagReading) : Prop where
  scope : r.scope.IsRead
  attributes : ∀ a ∈ r.attributes, a.1 ≠ "xmlns".toList ∧ IsXmlText a.2

lemma TagReading.IsRead.add {r r' : TagReading} (hr : r.IsRead) {name value : List Char}
    (hvalue : IsXmlText value) (h : r.add name value = .ok r') : r'.IsRead := by
  unfold TagReading.add at h
  split at h
  · obtain ⟨scope, hscope, hret⟩ := bind_eq_ok_iff.1 h
    cases hret
    exact ⟨hr.scope.bind hvalue hscope, hr.attributes⟩
  · next hdeclared =>
    cases h
    refine ⟨hr.scope, ?_⟩
    intro a ha
    rcases List.mem_append.1 ha with ha | ha
    · exact hr.attributes a ha
    · rw [List.mem_singleton.1 ha]
      refine ⟨?_, hvalue⟩
      intro heq
      dsimp only at heq
      rw [declaredQualifier?, if_pos heq] at hdeclared
      cases hdeclared

lemma TagReading.IsRead.addDeclared {element : List Char} {r r' : TagReading} (hr : r.IsRead)
    {as : List AttributeDeclaration} (has : ∀ a ∈ as, ∀ v, a.default = some v → IsXmlText v)
    (h : TagReading.addDeclared element r as = .ok r') : r'.IsRead := by
  induction as generalizing r with
  | nil =>
    cases h
    exact hr
  | cons a as ih =>
    rw [List.forall_mem_cons] at has
    rw [TagReading.addDeclared] at h
    split at h
    · next value hvalue =>
      split at h
      · obtain ⟨r₁, hr₁, htail⟩ := bind_eq_ok_iff.1 h
        exact ih (hr.add (has.1 value hvalue) hr₁) has.2 htail
      · exact ih hr has.2 h
    · exact ih hr has.2 h

/-- A name without a qualifier is the name as it is written. -/
lemma eq_of_splitQName {written base : List Char} (h : splitQName written = (none, base)) :
    base = written := by
  unfold splitQName at h
  split at h
  · cases h
  · exact ((Prod.mk.inj h).2).symm

lemma Scope.IsRead.attributeName {σ : Scope} (hσ : σ.IsRead) {written : List Char} {name : Name}
    (hwritten : written ≠ "xmlns".toList) (h : σ.attributeName written = .ok name) :
    IsNamespace name.space ∧ (name.space = [] → name.base ≠ "xmlns".toList) := by
  unfold Scope.attributeName at h
  split at h
  · next base hsplit =>
    cases h
    exact ⟨isNamespace_nil, fun _ => eq_of_splitQName hsplit ▸ hwritten⟩
  · split at h
    · next uri huri =>
      cases h
      exact ⟨(hσ.uri? huri).1, fun hnil => absurd hnil (hσ.uri? huri).2⟩
    · cases h

lemma Scope.IsRead.attributes {σ : Scope} (hσ : σ.IsRead) {earlier : List Name}
    {written : List (List Char × List Char)} {as : List Attribute}
    (hwritten : ∀ a ∈ written, a.1 ≠ "xmlns".toList ∧ IsXmlText a.2)
    (h : σ.attributes earlier written = .ok as) :
    (∀ a ∈ as, a.IsRead ∧ a.name ∉ earlier) ∧ (as.map (·.name)).Nodup := by
  induction written generalizing earlier as with
  | nil =>
    cases h
    exact ⟨fun a ha => absurd ha List.not_mem_nil, List.nodup_nil⟩
  | cons w written ih =>
    rw [List.forall_mem_cons] at hwritten
    obtain ⟨name, hname, htail⟩ := bind_eq_ok_iff.1 h
    split at htail
    · cases htail
    · next hearlier =>
      obtain ⟨more, hmore, hret⟩ := bind_eq_ok_iff.1 htail
      cases hret
      obtain ⟨has, hnodup⟩ := ih hwritten.2 hmore
      obtain ⟨hspace, hdeclaration⟩ := hσ.attributeName hwritten.1.1 hname
      rw [List.contains_iff_mem] at hearlier
      refine ⟨List.forall_mem_cons.2 ⟨⟨⟨hspace, hdeclaration, hwritten.1.2⟩, hearlier⟩, ?_⟩, ?_⟩
      · intro a ha
        exact ⟨(has a ha).1, fun hmem => (has a ha).2 (List.mem_cons_of_mem name hmem)⟩
      · refine List.nodup_cons.2 ⟨?_, hnodup⟩
        intro hmem
        obtain ⟨a, ha, heq⟩ := List.mem_map.1 hmem
        exact (has a ha).2 (heq ▸ List.mem_cons_self)

variable [Encoding]

/-! ## Tags -/

/-- What can be relied on in the tag of an element that was read. -/
structure Tag.IsRead (tag : Tag) : Prop where
  space : IsNamespace tag.name.space
  base : IsName tag.name.base
  attributes : ∀ a ∈ tag.attributes, a.IsRead
  nodup : (tag.attributes.map (·.name)).Nodup

lemma TagReading.IsRead.addWritten {d : Dtd} {origin : Origin} {opened : List (List Char)}
    {element place : List Char} {r r' : TagReading} (hr : r.IsRead) {as : List RawAttribute}
    (has : ∀ a ∈ as, HoldXmlText a.value)
    (h : TagReading.addWritten d origin opened element place r as = .ok r') : r'.IsRead := by
  induction as generalizing r with
  | nil =>
    cases h
    exact hr
  | cons a as ih =>
    rw [List.forall_mem_cons] at has
    rw [TagReading.addWritten] at h
    split at h
    · cases h
    · obtain ⟨v, hv, htail⟩ := bind_eq_ok_iff.1 h
      obtain ⟨r₁, hr₁, htail⟩ := bind_eq_ok_iff.1 htail
      have hvalue : IsXmlText v := isXmlText_of_partsValue isXmlText_of_readEntity
        (holdXmlText_originValue origin has.1) (mapError_eq_ok_iff.1 hv)
      exact ih (hr.add (isXmlText_settleSpaces hvalue) (mapError_eq_ok_iff.1 hr₁)) has.2 htail

lemma Scope.IsRead.elementName {σ : Scope} (hσ : σ.IsRead) {written : List Char} {name : Name}
    (hwritten : IsQName written) (h : σ.elementName written = .ok name) :
    IsNamespace name.space ∧ IsName name.base := by
  unfold Scope.elementName at h
  rcases hwritten with hn | ⟨q, b, hq, hb, rfl⟩
  · rw [splitQName_of_isName hn] at h
    cases h
    refine ⟨?_, hn⟩
    dsimp only
    cases huri : σ.uri? [] with
    | none => exact isNamespace_nil
    | some uri => exact (hσ.uri? huri).1
  · rw [splitQName_qualified hq] at h
    dsimp only at h
    split at h
    · next uri huri =>
      cases h
      exact ⟨(hσ.uri? huri).1, hb⟩
    · cases h

/-- A tag that was scanned means one that can be relied on. -/
lemma isRead_of_resolveTag {d : Dtd} (hd : d.HoldsXmlText) {origin : Origin}
    {opened : List (List Char)} {σ σ' : Scope} (hσ : σ.IsRead) {place : List Char} {t : RawTag}
    (ht : t.IsScanned) {tag : Tag} (h : resolveTag d origin opened σ place t = .ok (tag, σ')) :
    tag.IsRead ∧ σ'.IsRead := by
  obtain ⟨r, hr, hfinish⟩ := bind_eq_ok_iff.1 h
  have hstart : TagReading.IsRead ⟨[], [], σ⟩ := ⟨hσ, fun a ha => absurd ha List.not_mem_nil⟩
  obtain ⟨r', hr', htail⟩ := bind_eq_ok_iff.1 (mapError_eq_ok_iff.1 hfinish)
  have hread := (hstart.addWritten ht.values hr).addDeclared hd hr'
  obtain ⟨as, has, htail⟩ := bind_eq_ok_iff.1 htail
  obtain ⟨name, hname, hret⟩ := bind_eq_ok_iff.1 htail
  cases hret
  obtain ⟨hattributes, hnodup⟩ := hread.scope.attributes hread.attributes has
  obtain ⟨hspace, hbase⟩ := hread.scope.elementName ht.name hname
  exact ⟨⟨hspace, hbase, fun a ha => (hattributes a ha).1, hnodup⟩, hread.scope⟩

/-! ## Content -/

/-- Whether content can be relied on as content that was read. -/
abbrev AreRead (nodes : List Node) : Prop :=
  Throughout (fun c => isXmlChar c = true) Tag.IsRead nodes

/-- Whether the open elements and all inside them so far can be relied on. -/
def Stack.IsRead (stack : Stack) : Prop :=
  ∀ f ∈ stack, f.tag.IsRead ∧ f.scope.IsRead ∧ AreRead f.content

/-- Whether all that has been read after a token can be relied on. -/
def Progress.IsRead : Progress → Prop
  | .inside stack => stack.IsRead
  | .complete root => AreRead [.element root.tag root.content]

lemma Stack.IsRead.scope {stack : Stack} (h : stack.IsRead) : stack.scope.IsRead := by
  cases stack with
  | nil => exact isRead_initial
  | cons f fs => exact (h f List.mem_cons_self).2.1

lemma Stack.IsRead.add {stack : Stack} (h : stack.IsRead) {items : List Node}
    (hitems : AreRead items) : (stack.add items).IsRead := by
  cases stack with
  | nil => exact h
  | cons f fs =>
    rw [Stack.IsRead, List.forall_mem_cons] at h
    obtain ⟨⟨htag, hscope, hcontent⟩, hfs⟩ := h
    exact List.forall_mem_cons.2 ⟨⟨htag, hscope, throughout_append hitems hcontent⟩, hfs⟩

lemma Stack.IsRead.addText {stack : Stack} (h : stack.IsRead) {s : List Char}
    (hs : IsXmlText s) : (stack.addText s).IsRead :=
  h.add (throughout_reverse (throughout_chars hs))

lemma Stack.IsRead.addElement {stack : Stack} (h : stack.IsRead) {e : Element}
    (he : AreRead [.element e.tag e.content]) : (stack.addElement e).IsRead := by
  cases stack with
  | nil => exact he
  | cons f fs => exact h.add he

section Reading

variable {d : Dtd} {origin : Origin} {opened : List (List Char)}
variable {expand : (name text : List Char) → Stack → Except Problem Stack}

lemma Step.isRead (hd : d.HoldsXmlText)
    (hexpand : ∀ name text stack stack', expand name text stack = .ok stack' → stack.IsRead →
      stack'.IsRead)
    {place : List Char} {stack : Stack} {m : Markup} {p : Progress} (hm : m.IsScanned)
    (hstack : stack.IsRead) (h : Step d origin opened expand place stack m p) : p.IsRead := by
  cases h with
  | text s => exact hstack.addText (isXmlText_originText origin hm)
  | cdata s => exact hstack.addText (isXmlText_originText origin hm)
  | aside => exact hstack
  | emptyTag _ hr =>
    exact hstack.addElement (.element (isRead_of_resolveTag hd hstack.scope hm hr).1 .nil .nil)
  | startTag _ hr =>
    obtain ⟨htag, hscope⟩ := isRead_of_resolveTag hd hstack.scope hm hr
    exact List.forall_mem_cons.2 ⟨⟨htag, hscope, .nil⟩, hstack⟩
  | @endTag f fs heq =>
    subst heq
    rw [Stack.IsRead, List.forall_mem_cons] at hstack
    obtain ⟨⟨htag, -, hcontent⟩, hfs⟩ := hstack
    exact Stack.IsRead.addElement hfs (.element htag (throughout_reverse hcontent) .nil)
  | @character r c hc =>
    refine hstack.addText (isXmlText_cons.2 ⟨?_, isXmlText_nil⟩)
    cases r with
    | character n => exact isXmlChar_of_charOfNumber? hc
    | entity name => exact isXmlChar_of_predefined? hc
  | entity he => exact hexpand _ _ _ _ he hstack

lemma isRead_of_readInner (hd : d.HoldsXmlText)
    (hexpand : ∀ name text stack stack', expand name text stack = .ok stack' → stack.IsRead →
      stack'.IsRead)
    {depth : ℕ} {ts : List Token} (hts : ∀ t ∈ ts, t.markup.IsScanned) {stack stack' : Stack}
    (hstack : stack.IsRead)
    (h : readInner (step d origin opened expand) depth ts stack = .ok stack') :
    stack'.IsRead := by
  induction ts generalizing stack with
  | nil =>
    unfold readInner at h
    split at h
    · cases h
      exact hstack
    · cases h
  | cons t ts ih =>
    rw [List.forall_mem_cons] at hts
    unfold readInner at h
    split at h
    · cases h
    · split at h
      · cases h
      · cases h
      · next stack₁ hstep =>
        have hread : stack₁.IsRead := (step_cases hstep).isRead hd hexpand hts.1 hstack
        split at h
        · cases h
          exact hread
        · exact ih hts.2 hread h

lemma isRead_of_expandEntity (hd : d.HoldsXmlText) (budget : ℕ) (opened : List (List Char))
    (name text : List Char) (stack stack' : Stack)
    (h : expandEntity d budget opened name text stack = .ok stack') (hstack : stack.IsRead) :
    stack'.IsRead := by
  -- an entity may hold references to others, as long as the budget lasts
  induction budget generalizing opened name text stack stack' with
  | zero => cases h
  | succ budget ih =>
    rw [expandEntity] at h
    exact isRead_of_readInner hd (ih (name :: opened))
      (fun t ht => (@isScanned_of_mem_lex .narrow _ _ ht).of_narrow) hstack h

end Reading

lemma isRead_of_documentStep {d : Dtd} (hd : d.HoldsXmlText) {t : Token} {stack : Stack}
    {p : Progress} (hm : t.markup.IsScanned) (hstack : stack.IsRead)
    (h : documentStep d t stack = .ok p) : p.IsRead :=
  (step_cases h).isRead hd (isRead_of_expandEntity hd _ _) hm hstack

omit [Encoding] in
/-- **Whatever document a text is, its tree can be relied on**, with names as they are in the
encoding of the document. -/
theorem isRead_of_ofText {t : DocumentText} {document : Document}
    (h : Document.ofText t = .ok document) : ∃ encoding : Encoding, encoding = t.encoding ∧
      AreRead [.element document.root.tag document.root.content] := by
  obtain ⟨encoding, s, heq, hbody⟩ := exists_body_of_ofText h
  refine ⟨encoding, heq, ?_⟩
  obtain ⟨⟨d, fromRoot⟩, hprolog, htail⟩ := bind_eq_ok_iff.1 hbody
  obtain ⟨document', htokens, hepilog⟩ := bind_eq_ok_iff.1 htail
  have hd := holdsXmlText_of_readProlog hprolog
  split at hepilog
  · cases hepilog
    obtain ⟨-, -, hread⟩ := eq_of_ofTokens htokens
    obtain ⟨stack, hstack, hscan, hstep⟩ := readRoot_invariant (P := fun _ stack => stack.IsRead)
      (fun _ _ _ _ _ hscan hstack hstep =>
        isRead_of_documentStep hd (isScanned_of_scanMarkup hscan) hstack hstep)
      hread (fun f hf => absurd hf List.not_mem_nil)
    exact isRead_of_documentStep hd (isScanned_of_scanMarkup hscan) hstack hstep
  · cases hepilog

end Netconf.Xml
