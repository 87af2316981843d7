import Netconf.Proofs.Xml.Tokens
import Netconf.Xml.Content

/-!
# Open elements

`step_cases` says once what a token does to the open elements. From it follows that the text of an
entity leaves the elements around it open (`tags_of_expandEntity`), and that the outermost element
stays open until its own end tag (`closes_of_step`). `readRoot_invariant` carries whatever
each token keeps up to the token that completes the root.
-/

namespace Netconf.Xml

open Netconf.Outcome

/-! ## The start tags of open elements -/

/-- The names that the open elements are written with and their tags, the innermost first. -/
def Stack.tags (stack : Stack) : List (List Char × Tag) := stack.map fun f => (f.written, f.tag)

@[simp] lemma Stack.tags_add (items : List Node) (stack : Stack) :
    (stack.add items).tags = stack.tags := by
  cases stack <;> rfl

@[simp] lemma Stack.tags_addText (s : List Char) (stack : Stack) :
    (stack.addText s).tags = stack.tags := Stack.tags_add _ stack

lemma Stack.length_tags (stack : Stack) : stack.tags.length = stack.length := List.length_map _

lemma Stack.tags_of_addElement {e : Element} {stack stack' : Stack}
    (h : stack.addElement e = .inside stack') : stack'.tags = stack.tags := by
  cases stack with
  | nil => cases h
  | cons f fs =>
    cases h
    exact Stack.tags_add _ (f :: fs)

variable [Encoding]

/-! ## One token -/

/-- The character that a reference stands for where no entity is declared. -/
def Reference.char? : Reference → Option Char
  | .character n => charOfNumber? n
  | .entity name => predefined? name

section Step

variable {d : Dtd} {origin : Origin} {opened : List (List Char)}
variable {expand : (name text : List Char) → Stack → Except Problem Stack}

/-- What a token that is accepted does to the open elements. -/
inductive Step (d : Dtd) (origin : Origin) (opened : List (List Char))
    (expand : (name text : List Char) → Stack → Except Problem Stack) (place : List Char)
    (stack : Stack) : Markup → Progress → Prop where
  | text (s : List Char) :
    Step d origin opened expand place stack (.text s) (.inside (stack.addText (origin.text s)))
  | cdata (s : List Char) :
    Step d origin opened expand place stack (.cdata s) (.inside (stack.addText (origin.text s)))
  | aside : Step d origin opened expand place stack .aside (.inside stack)
  | emptyTag {tag : RawTag} {resolved : Tag} {scope : Scope} (hempty : tag.isEmpty = true)
    (hr : resolveTag d origin opened stack.scope place tag = .ok (resolved, scope)) :
    Step d origin opened expand place stack (.startTag tag) (stack.addElement ⟨resolved, []⟩)
  | startTag {tag : RawTag} {resolved : Tag} {scope : Scope} (hempty : tag.isEmpty = false)
    (hr : resolveTag d origin opened stack.scope place tag = .ok (resolved, scope)) :
    Step d origin opened expand place stack (.startTag tag)
      (.inside (⟨tag.name, resolved, scope, []⟩ :: stack))
  | endTag {f : Frame} {fs : Stack} (hstack : stack = f :: fs) :
    Step d origin opened expand place stack (.endTag f.written)
      (Stack.addElement ⟨f.tag, f.content.reverse⟩ fs)
  | character {r : Reference} {c : Char} (hc : r.char? = some c) :
    Step d origin opened expand place stack (.reference r) (.inside (stack.addText [c]))
  | entity {name text : List Char} {stack' : Stack} (he : expand name text stack = .ok stack') :
    Step d origin opened expand place stack (.reference (.entity name)) (.inside stack')

lemma step_cases {t : Token} {stack : Stack} {p : Progress}
    (h : step d origin opened expand t stack = .ok p) :
    Step d origin opened expand t.place stack t.markup p := by
  obtain ⟨m, place, rest⟩ := t
  unfold step at h
  dsimp only at h ⊢
  split at h
  · cases h
    exact .text _
  · cases h
    exact .cdata _
  · cases h
    exact .aside
  · cases h
  · cases h
  · next tag =>
    obtain ⟨⟨resolved, scope⟩, hr, htail⟩ := bind_eq_ok_iff.1 h
    dsimp only at htail
    split at htail
    · next hempty =>
      cases htail
      exact .emptyTag hempty hr
    · next hempty =>
      cases htail
      exact .startTag (Bool.eq_false_iff.2 hempty) hr
  · unfold Stack.close at h
    split at h
    · cases h
    · split at h
      · next hname =>
        cases h
        subst hname
        exact .endTag rfl
      · cases h
  · split at h
    · cases h
    · next hc =>
      cases h
      exact .character hc
  · split at h
    · next hc =>
      cases h
      exact .character hc
    · split at h
      · cases h
      · split at h
        · cases h
        · split at h
          · cases h
          · cases h
          · obtain ⟨stack', he, rfl⟩ := map_eq_ok_iff.1 (mapError_eq_ok_iff.1 h)
            exact .entity he

end Step

/-- The local name of an element is that of its start tag. -/
lemma base_of_resolveTag {d : Dtd} {origin : Origin} {opened : List (List Char)}
    {scope scope' : Scope} {place : List Char} {t : RawTag} {resolved : Tag}
    (h : resolveTag d origin opened scope place t = .ok (resolved, scope')) :
    resolved.name.base = (splitQName t.name).2 := by
  obtain ⟨r, -, hfinish⟩ := bind_eq_ok_iff.1 h
  obtain ⟨r', -, htail⟩ := bind_eq_ok_iff.1 (mapError_eq_ok_iff.1 hfinish)
  obtain ⟨attributes, -, htail⟩ := bind_eq_ok_iff.1 htail
  obtain ⟨name, hname, hret⟩ := bind_eq_ok_iff.1 htail
  cases hret
  unfold Scope.elementName at hname
  split at hname
  · next heq =>
    cases hname
    rw [heq]
  · next heq =>
    split at hname
    · cases hname
      rw [heq]
    · cases hname

/-! ## Start tags as tokens are read -/

section Tags

variable {d : Dtd} {origin : Origin} {opened : List (List Char)}
variable {expand : (name text : List Char) → Stack → Except Problem Stack}

/-- Only an end tag closes an element, and only the innermost. -/
lemma Step.tags {place : List Char} {stack stack' : Stack} {m : Markup}
    (hexpand : ∀ name text stack stack', expand name text stack = .ok stack' →
      stack.tags <:+ stack'.tags)
    (h : Step d origin opened expand place stack m (.inside stack')) :
    stack.tags <:+ stack'.tags ∨
      ∃ name tag, m = .endTag name ∧ stack.tags = (name, tag) :: stack'.tags ∧
        stack'.tags ≠ [] := by
  generalize hp : Progress.inside stack' = p at h
  cases h with
  | text s =>
    cases hp
    exact Or.inl (Stack.tags_addText _ stack ▸ List.suffix_rfl)
  | cdata s =>
    cases hp
    exact Or.inl (Stack.tags_addText _ stack ▸ List.suffix_rfl)
  | aside =>
    cases hp
    exact Or.inl List.suffix_rfl
  | emptyTag hempty hr =>
    exact Or.inl (Stack.tags_of_addElement hp.symm ▸ List.suffix_rfl)
  | startTag hempty hr =>
    cases hp
    exact Or.inl (List.suffix_cons _ _)
  | @endTag f fs hstack =>
    subst hstack
    have htags : stack'.tags = Stack.tags fs := Stack.tags_of_addElement hp.symm
    refine Or.inr ⟨f.written, f.tag, rfl, by rw [htags]; rfl, ?_⟩
    -- an element that is closed with no other around it would be the root
    rw [htags]
    rintro hnil
    rw [List.map_eq_nil_iff.1 hnil] at hp
    cases hp
  | character _ =>
    cases hp
    exact Or.inl (Stack.tags_addText _ stack ▸ List.suffix_rfl)
  | entity he =>
    cases hp
    exact Or.inl (hexpand _ _ _ _ he)

/-- Reading the text of an entity leaves open what was open before. -/
lemma tags_of_readInner {ts : List Token} {stack stack' : Stack} {outer : List (List Char × Tag)}
    (hexpand : ∀ name text stack stack', expand name text stack = .ok stack' →
      stack.tags <:+ stack'.tags)
    (houter : outer <:+ stack.tags)
    (h : readInner (step d origin opened expand) outer.length ts stack = .ok stack') :
    outer <:+ stack'.tags := by
  induction ts generalizing stack with
  | nil =>
    unfold readInner at h
    split at h
    · cases h
      exact houter
    · cases h
  | cons t ts ih =>
    unfold readInner at h
    split at h
    · cases h
    · next hclose =>
      split at h
      · cases h
      · cases h
      · next stack₁ hstep =>
        -- what the entity found open is still open behind each of its tokens
        have htags : outer <:+ stack₁.tags := by
          rcases (step_cases hstep).tags hexpand with hsuffix |
            ⟨name, _, hm, hcons, -⟩
          · exact houter.trans hsuffix
          · -- at its own depth an end tag is refused, so a further element is open
            have hdepth : stack.length ≠ outer.length := by
              intro hlen
              exact hclose name hm (decide_eq_true hlen)
            rw [hcons] at houter
            rcases List.suffix_cons_iff.1 houter with heq | hsuffix
            · exact absurd (by rw [← Stack.length_tags, hcons, heq]) hdepth
            · exact hsuffix
        split at h
        · cases h
          exact htags
        · exact ih htags h

lemma tags_of_expandEntity (budget : ℕ) (opened : List (List Char)) (name text : List Char)
    (stack stack' : Stack) (h : expandEntity d budget opened name text stack = .ok stack') :
    stack.tags <:+ stack'.tags := by
  -- an entity may hold references to others, as long as the budget lasts
  induction budget generalizing opened name text stack stack' with
  | zero => cases h
  | succ budget ih =>
    rw [expandEntity, ← Stack.length_tags] at h
    exact tags_of_readInner (ih (name :: opened)) List.suffix_rfl h

end Tags

/-! ## The root element -/

/-- How the tokens of a document itself are read. -/
abbrev documentStep (d : Dtd) : Token → Stack → Except Fault Progress :=
  step d .document [] (expandEntity d d.entities.length [])

/-- The outermost element stays open up to its end tag. -/
lemma closes_of_step {d : Dtd} {t : Token} {stack : Stack} {p : Progress} {name : List Char}
    {tag : Tag} (h : documentStep d t stack = .ok p)
    (houter : stack.tags.getLast? = some (name, tag)) :
    (∃ stack', p = .inside stack' ∧ stack'.tags.getLast? = some (name, tag)) ∨
      ∃ root, p = .complete root ∧ root.tag = tag ∧ t.markup = .endTag name := by
  have hstep := step_cases h
  cases p with
  | inside stack' =>
    refine Or.inl ⟨stack', rfl, ?_⟩
    rcases hstep.tags (tags_of_expandEntity d.entities.length []) with hsuffix |
      ⟨n, t, -, hcons, hne⟩
    · obtain ⟨inner, heq⟩ := hsuffix
      rw [← heq, List.getLast?_append, houter]
      rfl
    · obtain ⟨u, tags, htags⟩ := List.exists_cons_of_ne_nil hne
      rw [hcons, htags, List.getLast?_cons_cons] at houter
      rw [htags, houter]
  | complete root =>
    refine Or.inr ⟨root, rfl, ?_⟩
    generalize hm : t.markup = m at hstep
    generalize hp : Progress.complete root = p at hstep
    cases hstep with
    | emptyTag hempty hr =>
      -- the tag of an empty element completes the root only if it is the root itself
      cases stack with
      | nil => cases houter
      | cons f fs => cases hp
    | @endTag f fs hstack =>
      subst hstack
      -- an end tag completes the root only if nothing else is open
      cases fs with
      | nil =>
        cases houter
        cases hp
        exact ⟨rfl, rfl⟩
      | cons f' fs => cases hp
    | _ => cases hp

/-- What every token keeps holds of the text and the open elements in front of the token that
completes the root. -/
theorem readRoot_invariant {d : Dtd} {P : List Char → Stack → Prop}
    (hkeep : ∀ s m rest stack stack', scanMarkup s = .ok (m, rest) → P s stack →
      documentStep d ⟨m, s, rest⟩ stack = .ok (.inside stack') → P rest stack')
    {s : List Char} {stack : Stack} {root : Element} {closing : Token}
    (h : readRoot (documentStep d) (lex s) stack = .ok (root, closing)) (hP : P s stack) :
    ∃ stack', P closing.place stack' ∧
      scanMarkup closing.place = .ok (closing.markup, closing.rest) ∧
      documentStep d closing stack' = .ok (.complete root) := by
  induction s using lex_induction generalizing stack with
  | ended =>
    rw [lex, readRoot] at h
    cases h
  | broken s f hlex =>
    rw [hlex, readRoot] at h
    cases h
  | token s m rest hscan ih =>
    rw [lex_of_scanMarkup hscan, readRoot] at h
    split at h
    · cases h
    · next root' hstep =>
      cases h
      exact ⟨stack, hP, hscan, hstep⟩
    · next stack₁ hstep =>
      exact ih h (hkeep s m rest stack stack₁ hscan hP hstep)

end Netconf.Xml
