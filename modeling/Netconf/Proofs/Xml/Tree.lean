import Mathlib.Tactic.Common
import Netconf.Xml.Tree

/-!
# Elements inside of elements

Which elements stand somewhere in content, at any depth, and how that follows the way content is
put together. Where only characters stand, no element does. `Throughout` says of all characters
and all tags at any depth that they are of a kind.
-/

namespace Netconf.Xml

/-- Whether an element stands in content, at any depth. -/
inductive Element.IsIn (e : Element) : List Node → Prop where
  | here {nodes : List Node} (h : Node.element e.tag e.content ∈ nodes) : IsIn e nodes
  | deeper {tag : Tag} {content nodes : List Node} (h : Node.element tag content ∈ nodes)
    (hin : IsIn e content) : IsIn e nodes

/-- Whether an element is another one or stands in it, at any depth. -/
def Element.IsWithin (e outer : Element) : Prop := e = outer ∨ e.IsIn outer.content

/-- An element that stands in content is one of the elements there or within one. -/
lemma Element.isIn_iff {e : Element} {nodes : List Node} :
    e.IsIn nodes ↔ ∃ outer : Element, .element outer.tag outer.content ∈ nodes ∧
      e.IsWithin outer := by
  constructor
  · intro h
    cases h with
    | here h => exact ⟨e, h, Or.inl rfl⟩
    | @deeper tag content _ h hin => exact ⟨⟨tag, content⟩, h, Or.inr hin⟩
  · rintro ⟨outer, h, rfl | hin⟩
    · exact .here h
    · exact .deeper h hin

lemma Element.isIn_append {e : Element} {a b : List Node} :
    e.IsIn (a ++ b) ↔ e.IsIn a ∨ e.IsIn b := by
  simp only [Element.isIn_iff, List.mem_append]
  constructor
  · rintro ⟨outer, h | h, hin⟩
    · exact Or.inl ⟨outer, h, hin⟩
    · exact Or.inr ⟨outer, h, hin⟩
  · rintro (⟨outer, h, hin⟩ | ⟨outer, h, hin⟩)
    · exact ⟨outer, Or.inl h, hin⟩
    · exact ⟨outer, Or.inr h, hin⟩

lemma Element.isIn_reverse {e : Element} {nodes : List Node} :
    e.IsIn nodes.reverse ↔ e.IsIn nodes := by
  simp only [Element.isIn_iff, List.mem_reverse]

lemma Element.isIn_singleton {e outer : Element} :
    e.IsIn [.element outer.tag outer.content] ↔ e.IsWithin outer := by
  rw [Element.isIn_iff]
  constructor
  · rintro ⟨inner, h, hin⟩
    rw [List.mem_singleton, Node.element.injEq] at h
    obtain rfl : inner = outer := by
      cases inner
      cases outer
      exact Element.mk.injEq .. ▸ h
    exact hin
  · intro h
    exact ⟨outer, List.mem_singleton_self _, h⟩

lemma mem_of_mem_childrenWithTails {e : Element} {tail : List Char} {nodes : List Node}
    (h : (e, tail) ∈ childrenWithTails nodes) : .element e.tag e.content ∈ nodes := by
  induction nodes with
  | nil => cases h
  | cons node nodes ih =>
    cases node with
    | char c => exact List.mem_cons_of_mem _ (ih h)
    | element tag content =>
      rcases List.mem_cons.1 h with heq | h
      · cases heq
        exact List.mem_cons_self
      · exact List.mem_cons_of_mem _ (ih h)

/-- The children of an element stand in it. -/
lemma Element.isWithin_of_mem_children {e outer : Element} {tail : List Char}
    (h : (e, tail) ∈ outer.children) : e.IsWithin outer :=
  Or.inr (.here (mem_of_mem_childrenWithTails h))

/-- Characters are no elements. -/
lemma Element.not_isIn_chars {e : Element} (s : List Char) : ¬ e.IsIn (s.map .char) := by
  rw [Element.isIn_iff]
  rintro ⟨outer, h, -⟩
  obtain ⟨c, -, hc⟩ := List.mem_map.1 h
  cases hc

lemma leadingText_chars (s : List Char) : leadingText (s.map .char) = s := by
  induction s with
  | nil => rfl
  | cons c s ih => exact congrArg (c :: ·) ih

lemma leadingText_chars_append (s : List Char) (tag : Tag) (inner more : List Node) :
    leadingText (s.map .char ++ .element tag inner :: more) = s := by
  induction s with
  | nil => rfl
  | cons c s ih => exact congrArg (c :: ·) ih

lemma childrenWithTails_chars_append (s : List Char) (nodes : List Node) :
    childrenWithTails (s.map .char ++ nodes) = childrenWithTails nodes := by
  induction s with
  | nil => rfl
  | cons c s ih => exact ih

/-- Whether every item of content is a character of a kind. -/
def AllChars (p : Char → Prop) (nodes : List Node) : Prop :=
  ∀ node ∈ nodes, ∃ c, node = .char c ∧ p c

/-- Content without elements is its leading text. -/
lemma allChars_iff {p : Char → Prop} {nodes : List Node} :
    AllChars p nodes ↔ childrenWithTails nodes = [] ∧ ∀ c ∈ leadingText nodes, p c := by
  induction nodes with
  | nil => simp [AllChars, childrenWithTails, leadingText]
  | cons node nodes ih =>
    cases node with
    | char c =>
      rw [AllChars, List.forall_mem_cons, ← AllChars, ih]
      simp [childrenWithTails, leadingText, and_left_comm]
    | element tag content =>
      simp [AllChars, childrenWithTails]

lemma allChars_append {p : Char → Prop} {a b : List Node} :
    AllChars p (a ++ b) ↔ AllChars p a ∧ AllChars p b := by
  simp only [AllChars, List.forall_mem_append]

lemma allChars_reverse {p : Char → Prop} {nodes : List Node} :
    AllChars p nodes.reverse ↔ AllChars p nodes := by
  simp only [AllChars, List.mem_reverse]

lemma allChars_chars {p : Char → Prop} {s : List Char} :
    AllChars p (s.map .char) ↔ ∀ c ∈ s, p c := by
  simp [AllChars]

/-! ## At any depth -/

/-- Whether all characters and all tags of content, at any depth, are of a kind. -/
inductive Throughout (onChar : Char → Prop) (onTag : Tag → Prop) : List Node → Prop where
  | nil : Throughout onChar onTag []
  | char {c : Char} {nodes : List Node} (hc : onChar c) (h : Throughout onChar onTag nodes) :
    Throughout onChar onTag (.char c :: nodes)
  | element {tag : Tag} {inner nodes : List Node} (ht : onTag tag)
    (hinner : Throughout onChar onTag inner) (h : Throughout onChar onTag nodes) :
    Throughout onChar onTag (.element tag inner :: nodes)

section Throughout

variable {onChar : Char → Prop} {onTag : Tag → Prop}

lemma throughout_append {a b : List Node} (ha : Throughout onChar onTag a)
    (hb : Throughout onChar onTag b) : Throughout onChar onTag (a ++ b) := by
  induction ha with
  | nil => exact hb
  | char hc _ ih => exact .char hc ih
  | element ht hinner _ _ ih => exact .element ht hinner ih

mutual

/-- Whether something holds throughout one item of content can be found out. -/
def decidableInNode [DecidablePred onChar] [DecidablePred onTag] :
    (node : Node) → Decidable (Throughout onChar onTag [node])
  | .char c =>
    decidable_of_iff (onChar c) ⟨fun hc => .char hc .nil, fun | .char hc _ => hc⟩
  | .element tag inner =>
    have := decidableThroughout inner
    decidable_of_iff (onTag tag ∧ Throughout onChar onTag inner)
      ⟨fun h => .element h.1 h.2 .nil, fun | .element ht hinner _ => ⟨ht, hinner⟩⟩
termination_by structural node => node

/-- Whether something holds throughout content can be found out. -/
def decidableThroughout [DecidablePred onChar] [DecidablePred onTag] :
    (nodes : List Node) → Decidable (Throughout onChar onTag nodes)
  | [] => isTrue .nil
  | node :: nodes =>
    have := decidableInNode node
    have := decidableThroughout nodes
    decidable_of_iff (Throughout onChar onTag [node] ∧ Throughout onChar onTag nodes)
      ⟨fun h => throughout_append h.1 h.2, fun
        | .char hc h => ⟨.char hc .nil, h⟩
        | .element ht hinner h => ⟨.element ht hinner .nil, h⟩⟩
termination_by structural nodes => nodes

end

instance [DecidablePred onChar] [DecidablePred onTag] (nodes : List Node) :
    Decidable (Throughout onChar onTag nodes) := decidableThroughout nodes

lemma throughout_reverse {nodes : List Node} (h : Throughout onChar onTag nodes) :
    Throughout onChar onTag nodes.reverse := by
  induction h with
  | nil => exact .nil
  | char hc _ ih =>
    rw [List.reverse_cons]
    exact throughout_append ih (.char hc .nil)
  | element ht hinner _ _ ih =>
    rw [List.reverse_cons]
    exact throughout_append ih (.element ht hinner .nil)

lemma throughout_chars {s : List Char} (h : ∀ c ∈ s, onChar c) :
    Throughout onChar onTag (s.map .char) := by
  induction s with
  | nil => exact .nil
  | cons c s ih =>
    rw [List.forall_mem_cons] at h
    exact .char h.1 (ih h.2)

lemma Throughout.content {tag : Tag} {inner : List Node}
    (h : Throughout onChar onTag [.element tag inner]) : Throughout onChar onTag inner := by
  cases h with
  | element _ hinner _ => exact hinner

/-- What holds throughout holds throughout a child. -/
lemma Throughout.child {e : Element} {tail : List Char} {nodes : List Node}
    (h : Throughout onChar onTag nodes) (he : (e, tail) ∈ childrenWithTails nodes) :
    Throughout onChar onTag [.element e.tag e.content] := by
  induction h with
  | nil => cases he
  | char _ _ ih => exact ih he
  | element ht hinner _ _ ih =>
    rcases List.mem_cons.1 he with heq | he
    · cases heq
      exact .element ht hinner .nil
    · exact ih he

end Throughout

end Netconf.Xml
