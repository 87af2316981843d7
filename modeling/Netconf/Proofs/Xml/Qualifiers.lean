import Mathlib.Data.List.Nodup
import Netconf.Proofs.Xml.ReadTree
import Netconf.Xml.Printer

/-!
# The qualifiers that namespaces are given

When an element is written, each namespace in it gets one qualifier. All namespaces get one
(`covered_addContent`), no two get the same and none gets a reserved one (`IsGiven.isProper`), so
a name that is written with its qualifier is that name again wherever the qualifiers are declared
(`attributeName_write`, `elementName_write`).
-/

namespace Netconf.Xml

open Netconf.Outcome Netconf.Text

/-! ## One qualifier -/

/-- What is known of the usual qualifiers: they are names, none is that of declarations or looks
like a numbered one, and that of `xml` is not used for anything else. -/
lemma wellKnownQualifiers_facts : ∀ q ∈ wellKnownQualifiers,
    IsName q.2 ∧ q.2 ≠ "xmlns".toList ∧ ¬ "ns".toList <+: q.2 ∧
      (q.2 = "xml".toList → q.1 = xmlUri) := by
  decide

lemma wellKnownQualifiers_injective : ∀ q ∈ wellKnownQualifiers, ∀ q' ∈ wellKnownQualifiers,
    q.2 = q'.2 → q.1 = q'.1 := by
  decide

lemma mem_of_wellKnownQualifier? {uri qualifier : List Char}
    (h : wellKnownQualifier? uri = some qualifier) : (uri, qualifier) ∈ wellKnownQualifiers := by
  obtain ⟨q, hfind, rfl⟩ := Option.map_eq_some_iff.1 h
  have huri := List.find?_some hfind
  rw [beq_iff_eq] at huri
  rw [← huri]
  exact List.mem_of_find?_eq_some hfind

/-- A numbered qualifier. -/
def numberedQualifier (i : ℕ) : List Char := "ns".toList ++ decimal i

lemma numberedQualifier_injective {i j : ℕ} (h : numberedQualifier i = numberedQualifier j) :
    i = j := by
  have hdigits : Nat.toDigits 10 i = Nat.toDigits 10 j := List.append_cancel_left h
  have := congrArg (Nat.ofDigitChars 10 · 0) hdigits
  simpa using this

lemma isName_numberedQualifier (i : ℕ) : IsName (numberedQualifier i) := by
  refine ⟨'n', 's' :: decimal i, rfl, by decide, ?_⟩
  intro c hc
  rcases List.mem_cons.1 hc with rfl | hc
  · decide
  · have hdigit : c.isDigit = true := Nat.isDigit_of_mem_toDigits (by omega) (by omega) hc
    have hlt : c.toNat < 0x80 := by
      simp only [Char.isDigit, Bool.and_eq_true, decide_eq_true_eq,
        UInt32.le_iff_toNat_le] at hdigit
      exact Nat.lt_of_le_of_lt hdigit.2 (by decide)
    rw [isNameChar, if_pos hlt, Char.isAlphanum, hdigit, Bool.or_true]
    rfl

/-- The qualifier that a namespace gets when `i` have been given one before. -/
def givenQualifier (uri : List Char) (i : ℕ) : List Char :=
  (wellKnownQualifier? uri).getD (numberedQualifier i)

/-- A usual qualifier, or a numbered one. -/
lemma givenQualifier_cases (uri : List Char) (i : ℕ) :
    (uri, givenQualifier uri i) ∈ wellKnownQualifiers ∨
      givenQualifier uri i = numberedQualifier i := by
  unfold givenQualifier
  cases h : wellKnownQualifier? uri with
  | none => exact Or.inr rfl
  | some qualifier => exact Or.inl (mem_of_wellKnownQualifier? h)

lemma isName_givenQualifier (uri : List Char) (i : ℕ) : IsName (givenQualifier uri i) := by
  rcases givenQualifier_cases uri i with hmem | heq
  · exact (wellKnownQualifiers_facts _ hmem).1
  · rw [heq]
    exact isName_numberedQualifier i

lemma givenQualifier_ne {uri : List Char} (huri : uri ≠ xmlUri) (i : ℕ) :
    givenQualifier uri i ≠ "xml".toList ∧ givenQualifier uri i ≠ "xmlns".toList := by
  rcases givenQualifier_cases uri i with hmem | heq
  · exact ⟨fun h => huri ((wellKnownQualifiers_facts _ hmem).2.2.2 h),
      (wellKnownQualifiers_facts _ hmem).2.1⟩
  · rw [heq]
    constructor <;> exact fun h => absurd (List.cons.inj h).1 (by decide)

/-- Different namespaces at different places get different qualifiers. -/
lemma givenQualifier_injective {uri uri' : List Char} {i j : ℕ} (huri : uri ≠ uri') (hij : i ≠ j) :
    givenQualifier uri i ≠ givenQualifier uri' j := by
  intro heq
  rcases givenQualifier_cases uri i with hmem | hi <;>
    rcases givenQualifier_cases uri' j with hmem' | hj
  · exact huri (wellKnownQualifiers_injective _ hmem _ hmem' heq)
  · rw [hj] at heq
    exact (wellKnownQualifiers_facts _ hmem).2.2.1 (heq ▸ List.prefix_append _ _)
  · rw [hi] at heq
    exact (wellKnownQualifiers_facts _ hmem').2.2.1 (heq ▸ List.prefix_append _ _)
  · rw [hi, hj] at heq
    exact hij (numberedQualifier_injective heq)

/-! ## All qualifiers -/

namespace Qualifiers

/-- Whether qualifiers have been given one after the other to namespaces that can be declared. -/
structure IsGiven (qs : Qualifiers) : Prop where
  qualifier : ∀ i q, qs[i]? = some q → q.2 = givenQualifier q.1 i
  nodup : (qs.map (·.1)).Nodup
  space : ∀ q ∈ qs, IsNamespace q.1 ∧ q.1 ≠ [] ∧ q.1 ≠ xmlUri

lemma isGiven_nil : IsGiven [] where
  qualifier := fun i q h => by cases h
  nodup := List.nodup_nil
  space := fun q hq => absurd hq List.not_mem_nil

/-- Whether the namespace of a name needs no qualifier or has got one. -/
def Covers (qs : Qualifiers) (name : Name) : Prop :=
  name.space = [] ∨ name.space = xmlUri ∨ (qs.qualifier? name.space).isSome = true

lemma qualifier?_append (qs more : Qualifiers) (uri : List Char) :
    qualifier? (qs ++ more) uri = (qs.qualifier? uri).or (qualifier? more uri) := by
  unfold qualifier?
  rw [List.find?_append]
  cases qs.find? fun q => q.1 == uri <;> rfl

/-- What has got a qualifier keeps it. -/
lemma Covers.mono {qs qs' : Qualifiers} {name : Name} (h : qs.Covers name)
    (hle : qs <+: qs') : qs'.Covers name := by
  obtain ⟨more, rfl⟩ := hle
  refine h.imp_right (Or.imp_right fun h => ?_)
  rw [qualifier?_append, Option.isSome_or, h, Bool.true_or]

lemma mem_of_qualifier? {qs : Qualifiers} {uri qualifier : List Char}
    (h : qs.qualifier? uri = some qualifier) : (uri, qualifier) ∈ qs := by
  obtain ⟨q, hfind, rfl⟩ := Option.map_eq_some_iff.1 h
  have huri := List.find?_some hfind
  rw [beq_iff_eq] at huri
  rw [← huri]
  exact List.mem_of_find?_eq_some hfind

lemma not_mem_of_qualifier? {qs : Qualifiers} {uri : List Char}
    (h : ¬(qs.qualifier? uri).isSome = true) : uri ∉ qs.map (·.1) := by
  intro hmem
  obtain ⟨q, hq, rfl⟩ := List.mem_map.1 hmem
  apply h
  rw [qualifier?, Option.isSome_map, List.find?_isSome]
  exact ⟨q, hq, beq_self_eq_true _⟩

/-- What giving a qualifier to one more name leads to. -/
structure Extends (qs qs' : Qualifiers) : Prop where
  isPrefix : qs <+: qs'
  isGiven : IsGiven qs → IsGiven qs'

lemma Extends.refl (qs : Qualifiers) : Extends qs qs := ⟨List.prefix_rfl, id⟩

lemma Extends.trans {qs qs' qs'' : Qualifiers} (h : Extends qs qs') (h' : Extends qs' qs'') :
    Extends qs qs'' := ⟨h.isPrefix.trans h'.isPrefix, fun hqs => h'.isGiven (h.isGiven hqs)⟩

lemma extends_add (qs : Qualifiers) {name : Name} (hname : IsNamespace name.space) :
    Extends qs (qs.add name) ∧ (qs.add name).Covers name := by
  unfold add
  split
  · next h =>
    exact ⟨.refl qs, h⟩
  · next h =>
    rw [not_or, not_or] at h
    obtain ⟨hnil, hxml, hnew⟩ := h
    refine ⟨⟨List.prefix_append _ _, ?_⟩, Or.inr (Or.inr ?_)⟩
    · intro hqs
      refine ⟨?_, ?_, ?_⟩
      · intro i q hq
        rcases Nat.lt_or_ge i qs.length with hlt | hge
        · rw [List.getElem?_append_left hlt] at hq
          exact hqs.qualifier i q hq
        · rw [List.getElem?_append_right hge] at hq
          have hi : i - qs.length = 0 := by
            have hlt := (List.getElem?_eq_some_iff.1 hq).1
            rw [List.length_singleton] at hlt
            omega
          rw [hi, List.getElem?_cons_zero, Option.some.injEq] at hq
          rw [← hq, Nat.le_antisymm (Nat.sub_eq_zero_iff_le.1 hi) hge]
          rfl
      · rw [List.map_append, List.nodup_append]
        refine ⟨hqs.nodup, List.nodup_singleton _, ?_⟩
        rintro u hu v hv rfl
        rw [List.map_singleton, List.mem_singleton] at hv
        rw [hv] at hu
        exact not_mem_of_qualifier? hnew hu
      · intro q hq
        rcases List.mem_append.1 hq with hq | hq
        · exact hqs.space q hq
        · rw [List.mem_singleton.1 hq]
          exact ⟨hname, hnil, hxml⟩
    · rw [qualifier?_append, Option.isSome_or]
      have : (qualifier? [(name.space, (wellKnownQualifier? name.space).getD
          ("ns".toList ++ decimal qs.length))] name.space).isSome = true := by
        rw [qualifier?, Option.isSome_map, List.find?_isSome]
        exact ⟨_, List.mem_singleton_self _, beq_self_eq_true _⟩
      rw [this, Bool.or_true]

lemma extends_foldl_add (qs : Qualifiers) {names : List Name}
    (hnames : ∀ name ∈ names, IsNamespace name.space) :
    Extends qs (names.foldl add qs) ∧ ∀ name ∈ names, (names.foldl add qs).Covers name := by
  induction names generalizing qs with
  | nil => exact ⟨.refl qs, fun name h => absurd h List.not_mem_nil⟩
  | cons name names ih =>
    rw [List.forall_mem_cons] at hnames
    obtain ⟨hfirst, hcovers⟩ := extends_add qs hnames.1
    obtain ⟨hrest, hcovered⟩ := ih (qs.add name) hnames.2
    exact ⟨hfirst.trans hrest,
      List.forall_mem_cons.2 ⟨hcovers.mono hrest.isPrefix, hcovered⟩⟩

/-- Whether all names of a tag are covered. -/
def CoversTag (qs : Qualifiers) (tag : Tag) : Prop :=
  ∀ name ∈ tag.name :: tag.attributes.map (·.name), qs.Covers name

lemma CoversTag.mono {qs qs' : Qualifiers} {tag : Tag} (h : qs.CoversTag tag)
    (hle : qs <+: qs') : qs'.CoversTag tag := fun name hname => (h name hname).mono hle

lemma extends_addTag (qs : Qualifiers) {tag : Tag} (htag : tag.IsRead) :
    Extends qs (qs.addTag tag) ∧ (qs.addTag tag).CoversTag tag := by
  refine extends_foldl_add qs (List.forall_mem_cons.2 ⟨htag.space, ?_⟩)
  intro name hname
  obtain ⟨a, ha, rfl⟩ := List.mem_map.1 hname
  exact (htag.attributes a ha).space

/-- Whether all names in content are covered. -/
abbrev CoversContent (qs : Qualifiers) (nodes : List Node) : Prop :=
  Throughout (fun _ => True) qs.CoversTag nodes

lemma CoversContent.mono {qs qs' : Qualifiers} {nodes : List Node}
    (h : qs.CoversContent nodes) (hle : qs <+: qs') : qs'.CoversContent nodes := by
  induction h with
  | nil => exact .nil
  | char _ _ ih => exact .char trivial ih
  | element ht _ _ ihinner ih => exact .element (ht.mono hle) ihinner ih

/-- Every name in content gets a qualifier if it needs one. -/
lemma extends_addContent {nodes : List Node} (h : AreRead nodes) (qs : Qualifiers) :
    Extends qs (addNode.addContent qs nodes) ∧
      (addNode.addContent qs nodes).CoversContent nodes := by
  induction h generalizing qs with
  | nil => exact ⟨.refl qs, .nil⟩
  | char _ _ ih =>
    obtain ⟨hextends, hcovers⟩ := ih qs
    exact ⟨hextends, .char trivial hcovers⟩
  | @element tag inner nodes ht _ _ ihinner ih =>
    obtain ⟨htag, hcoversTag⟩ := extends_addTag qs ht
    obtain ⟨hinner, hcoversInner⟩ := ihinner (qs.addTag tag)
    obtain ⟨hrest, hcovers⟩ := ih (addNode.addContent (qs.addTag tag) inner)
    exact ⟨(htag.trans hinner).trans hrest,
      .element (hcoversTag.mono (hinner.trans hrest).isPrefix)
        (hcoversInner.mono hrest.isPrefix) hcovers⟩

/-- What is needed of qualifiers to declare them. -/
structure IsProper (qs : Qualifiers) : Prop where
  nodup : (qs.map (·.2)).Nodup
  qualifier : ∀ q ∈ qs, IsName q.2 ∧ q.2 ≠ "xml".toList ∧ q.2 ≠ "xmlns".toList
  space : ∀ q ∈ qs, IsNamespace q.1 ∧ q.1 ≠ [] ∧ q.1 ≠ xmlUri

/-- The order of qualifiers does not matter. -/
lemma IsProper.perm {qs qs' : Qualifiers} (h : qs.IsProper) (hperm : List.Perm qs' qs) :
    qs'.IsProper where
  nodup := (hperm.map _).nodup_iff.2 h.nodup
  qualifier := fun q hq => h.qualifier q (hperm.mem_iff.1 hq)
  space := fun q hq => h.space q (hperm.mem_iff.1 hq)

/-- **Qualifiers that are given can be declared.** -/
theorem IsGiven.isProper {qs : Qualifiers} (h : qs.IsGiven) : qs.IsProper where
  nodup := by
    have hspaces := List.pairwise_iff_getElem.1 h.nodup
    refine List.pairwise_iff_getElem.2 ?_
    intro i j hi hj hij
    have hne := hspaces i j (by simpa using hi) (by simpa using hj) hij
    rw [List.length_map] at hi hj
    rw [List.getElem_map, List.getElem_map] at hne ⊢
    rw [h.qualifier i _ (List.getElem?_eq_getElem hi),
      h.qualifier j _ (List.getElem?_eq_getElem hj)]
    exact givenQualifier_injective hne (Nat.ne_of_lt hij)
  qualifier := by
    intro q hq
    obtain ⟨i, hi⟩ := List.mem_iff_getElem?.1 hq
    rw [h.qualifier i q hi]
    exact ⟨isName_givenQualifier q.1 i, givenQualifier_ne (h.space q hq).2.2 i⟩
  space := h.space

end Qualifiers

/-! ## Scopes in which qualifiers are declared -/

/-- Whether given qualifiers stand for their namespaces in a scope, and nothing else is
declared. -/
structure Scope.Declares (σ : Scope) (qs : Qualifiers) : Prop where
  given : ∀ q ∈ qs, σ.uri? q.2 = some q.1
  xml : σ.uri? "xml".toList = some xmlUri
  unqualified : σ.uri? [] = none

/-- The scope with the declarations of qualifiers, in their order. -/
def Scope.declare (σ : Scope) (qs : Qualifiers) : Scope :=
  (qs.map fun q => (q.2, q.1)).reverse ++ σ

lemma Scope.uri?_of_mem {σ : Scope} (hnodup : (σ.map (·.1)).Nodup) {b : List Char × List Char}
    (hb : b ∈ σ) (hne : b.2 ≠ []) : σ.uri? b.1 = some b.2 := by
  have hfind : σ.find? (fun b' => b'.1 == b.1) = some b := by
    induction σ with
    | nil => cases hb
    | cons b' σ ih =>
      rw [List.map_cons, List.nodup_cons] at hnodup
      rcases List.mem_cons.1 hb with rfl | hb
      · exact List.find?_cons_of_pos (beq_self_eq_true _)
      · have hfirst : ¬(b'.1 == b.1) = true := by
          rw [beq_iff_eq]
          intro heq
          exact hnodup.1 (heq ▸ List.mem_map_of_mem hb)
        have hskip : (b' :: σ).find? (fun b' => b'.1 == b.1) =
            σ.find? (fun b' => b'.1 == b.1) := List.find?_cons_of_neg hfirst
        rw [hskip]
        exact ih hnodup.2 hb
  rw [Scope.uri?, hfind]
  exact if_neg hne

/-- Proper qualifiers that are declared in a document stand for their namespaces there. -/
lemma declares_declare {qs : Qualifiers} (h : qs.IsProper) :
    (Scope.initial.declare qs).Declares qs := by
  have hkeys : ((Scope.initial.declare qs).map (·.1)) =
      (qs.map (·.2)).reverse ++ ["xml".toList] := by
    rw [Scope.declare, List.map_append, List.map_reverse, List.map_map]
    rfl
  have hnodup : ((Scope.initial.declare qs).map (·.1)).Nodup := by
    rw [hkeys, List.nodup_append]
    refine ⟨List.nodup_reverse.2 h.nodup, List.nodup_singleton _, ?_⟩
    rintro u hu v hv rfl
    obtain ⟨q, hq, rfl⟩ := List.mem_map.1 (List.mem_reverse.1 hu)
    exact (h.qualifier q hq).2.1 (List.mem_singleton.1 hv)
  refine ⟨?_, ?_, ?_⟩
  · intro q hq
    have hmem : (q.2, q.1) ∈ Scope.initial.declare qs :=
      List.mem_append_left _ (List.mem_reverse.2 (List.mem_map_of_mem hq))
    exact Scope.uri?_of_mem hnodup hmem (h.space q hq).2.1
  · have hmem : ("xml".toList, xmlUri) ∈ Scope.initial.declare qs :=
      List.mem_append_right _ (List.mem_singleton_self _)
    exact Scope.uri?_of_mem hnodup hmem (by decide)
  · have hfind : (Scope.initial.declare qs).find? (fun b => b.1 == []) = none := by
      rw [List.find?_eq_none]
      intro b hb heq
      rw [beq_iff_eq] at heq
      have hmem : b.1 ∈ (Scope.initial.declare qs).map (·.1) := List.mem_map_of_mem hb
      rw [hkeys, heq] at hmem
      rcases List.mem_append.1 hmem with hmem | hmem
      · obtain ⟨q, hq, hnil⟩ := List.mem_map.1 (List.mem_reverse.1 hmem)
        exact (h.qualifier q hq).1.isTagName (s := []) (fun c hc => absurd hc List.not_mem_nil)
          |>.ne_nil (by rw [List.append_nil]; exact hnil)
      · exact absurd (List.mem_singleton.1 hmem) (by decide)
    rw [Scope.uri?, hfind]

/-! ## Names with their qualifiers -/

section Written

variable {qs : Qualifiers} {name : Name}

/-- How a name is written: as it is, or behind a qualifier of its namespace. -/
inductive Qualifiers.Writes (qs : Qualifiers) (name : Name) : List Char → Prop where
  | plain (hspace : name.space = []) : Writes qs name name.base
  | qualified {q : List Char} (hspace : name.space ≠ []) (hq : IsName q)
    (hxmlns : q ≠ "xmlns".toList)
    (huri : ∀ {σ : Scope}, σ.Declares qs → σ.uri? q = some name.space) :
    Writes qs name (q ++ ':' :: name.base)

lemma Qualifiers.IsProper.writes (hqs : qs.IsProper) (h : qs.Covers name) :
    qs.Writes name (qs.write name) := by
  unfold Qualifiers.write
  by_cases hspace : name.space = []
  · rw [if_pos hspace]
    exact .plain hspace
  rw [if_neg hspace]
  by_cases hxml : name.space = xmlUri
  · simp only [if_pos hxml]
    exact .qualified hspace (by decide) (by decide) fun hσ => hxml ▸ hσ.xml
  · simp only [if_neg hxml]
    obtain ⟨q, hq⟩ := Option.isSome_iff_exists.1 ((h.resolve_left hspace).resolve_left hxml)
    rw [hq, Option.getD_some]
    have hmem := Qualifiers.mem_of_qualifier? hq
    obtain ⟨hname, -, hxmlns⟩ := hqs.qualifier _ hmem
    exact .qualified hspace hname hxmlns fun hσ => hσ.given _ hmem

lemma Qualifiers.Writes.isQName {w : List Char} (h : qs.Writes name w) (hbase : IsName name.base) :
    IsQName w := by
  cases h with
  | plain _ => exact Or.inl hbase
  | qualified _ hq _ _ => exact Or.inr ⟨_, _, hq, hbase, rfl⟩

/-- **An attribute's name that is written with its qualifier is that name again.** -/
theorem attributeName_write {w : List Char} (h : qs.Writes name w) (hbase : IsName name.base)
    {σ : Scope} (hσ : σ.Declares qs) : σ.attributeName w = .ok name := by
  obtain ⟨space, base⟩ := name
  unfold Scope.attributeName
  cases h with
  | plain hspace =>
    rw [splitQName_of_isName hbase]
    exact congrArg (fun space => Except.ok (Name.mk space base)) hspace.symm
  | qualified _ hq _ huri =>
    rw [splitQName_qualified hq]
    dsimp only
    rw [huri hσ]

/-- **An element's name that is written with its qualifier is that name again.** -/
theorem elementName_write {w : List Char} (h : qs.Writes name w) (hbase : IsName name.base)
    {σ : Scope} (hσ : σ.Declares qs) : σ.elementName w = .ok name := by
  obtain ⟨space, base⟩ := name
  unfold Scope.elementName
  cases h with
  | plain hspace =>
    rw [splitQName_of_isName hbase]
    dsimp only
    rw [hσ.unqualified]
    exact congrArg (fun space => Except.ok (Name.mk space base)) hspace.symm
  | qualified _ hq _ huri =>
    rw [splitQName_qualified hq]
    dsimp only
    rw [huri hσ]

/-- The name of an attribute does not look like a declaration of a namespace. -/
lemma declaredQualifier?_write {w : List Char} (h : qs.Writes name w) (hbase : IsName name.base)
    (hplain : name.space = [] → name.base ≠ "xmlns".toList) : declaredQualifier? w = none := by
  unfold declaredQualifier?
  cases h with
  | plain hspace =>
    rw [if_neg (hplain hspace), if_neg]
    rw [List.isPrefixOf_iff_prefix]
    intro hxmlns
    exact hbase.not_mem_colon (hxmlns.subset (by decide))
  | @qualified q _ hq hxmlns _ =>
    have hcolon : ':' ∈ q ++ ':' :: name.base := List.mem_append_right _ List.mem_cons_self
    have hne : q ++ ':' :: name.base ≠ "xmlns".toList := by
      intro heq
      rw [heq] at hcolon
      exact absurd hcolon (by decide)
    rw [if_neg hne, if_neg]
    rw [List.isPrefixOf_iff_prefix]
    rintro ⟨r, hr⟩
    -- both sides are split at their first colon
    have hleft := splitQName_qualified (q := "xmlns".toList) (by decide) r
    have hright := splitQName_qualified hq name.base
    rw [← hr] at hright
    exact hxmlns (Option.some.inj (Prod.mk.inj (hright.symm.trans hleft)).1)

end Written

end Netconf.Xml
