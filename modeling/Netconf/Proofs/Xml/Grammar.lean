import Netconf.Proofs.Xml.Content
import Netconf.Proofs.Xml.TagMeaning

/-!
# The grammar of content

What a piece of content is written as and what it means, without tokens and open elements:
`IsContent` goes by the way the text is written, one character or one piece of markup after the
other, with a rule of its own for an element and the content in it. It is what reading comes to:
content that fits the grammar is read as the grammar says, whatever stands around it
(`readFrom_of_isContent`), and where no entity is declared nothing else is read
(`isContent_of_readFrom`).
-/

namespace Netconf.Xml

open Netconf.Outcome

/-! ## The rules -/

/-- Whether a text is a start tag with a meaning in a scope. -/
structure IsTag (d : Dtd) (σ : Scope) (w : List Char) (t : RawTag) (tag : Tag) (σ' : Scope) :
    Prop where
  scan : Takes scanMarkup Markup.unplaced w (.startTag t)
  meaning : resolveTag d .document [] σ [] t = .ok (tag, σ')

/-- A text has at most one start tag at its start, with one meaning. -/
lemma IsTag.unique {d : Dtd} {σ σ₁ σ₂ : Scope} {w w' r r' : List Char} {t t' : RawTag}
    {tag tag' : Tag} (h : IsTag d σ w t tag σ₁) (h' : IsTag d σ w' t' tag' σ₂)
    (heq : w ++ r = w' ++ r') : w = w' ∧ r = r' ∧ t = t' ∧ tag = tag' ∧ σ₁ = σ₂ := by
  obtain ⟨m, hm, hview⟩ := h.scan r
  obtain ⟨m', hm', hview'⟩ := h'.scan r'
  rw [heq, hm'] at hm
  obtain ⟨rfl, rfl⟩ := Prod.mk.inj (Except.ok.inj hm)
  rw [hview] at hview'
  obtain rfl := Markup.startTag.inj hview'
  obtain ⟨rfl, rfl⟩ := Prod.mk.inj (Except.ok.inj (h.meaning.symm.trans h'.meaning))
  exact ⟨List.append_cancel_right heq, rfl, rfl, rfl, rfl⟩

/-- Whether a text is content of this meaning in a scope. -/
inductive IsContent (d : Dtd) : Scope → List Char → List Node → Prop where
  | nil {σ : Scope} : IsContent d σ [] []
  | char {σ : Scope} {c : Char} {u : List Char} {items : List Node}
    (hc : endsText (c :: u) = false) (hreturn : c ≠ '\r') (h : IsContent d σ u items) :
    IsContent d σ (c :: u) (.char c :: items)
  | lineBreak {σ : Scope} {u : List Char} {items : List Node} (h : IsContent d σ u items) :
    IsContent d σ ('\r' :: '\n' :: u) (.char '\n' :: items)
  | carriageReturn {σ : Scope} {u : List Char} {items : List Node} (hu : u.head? ≠ some '\n')
    (h : IsContent d σ u items) : IsContent d σ ('\r' :: u) (.char '\n' :: items)
  | reference {σ : Scope} {w u : List Char} {r : Reference} {c : Char} {items : List Node}
    (hw : Takes scanMarkup Markup.unplaced w (.reference r)) (hr : r.char? = some c)
    (h : IsContent d σ u items) : IsContent d σ (w ++ u) (.char c :: items)
  | cdata {σ : Scope} {w s u : List Char} {items : List Node}
    (hw : Takes scanMarkup Markup.unplaced w (.cdata s)) (h : IsContent d σ u items) :
    IsContent d σ (w ++ u) ((unifyLineEnds s).map .char ++ items)
  | aside {σ : Scope} {w u : List Char} {items : List Node}
    (hw : Takes scanMarkup Markup.unplaced w .aside) (h : IsContent d σ u items) :
    IsContent d σ (w ++ u) items
  | emptyTag {σ σ' : Scope} {w u : List Char} {t : RawTag} {tag : Tag} {items : List Node}
    (hw : IsTag d σ w t tag σ') (ht : t.isEmpty = true) (h : IsContent d σ u items) :
    IsContent d σ (w ++ u) (.element tag [] :: items)
  | element {σ σ' : Scope} {w v sp u : List Char} {t : RawTag} {tag : Tag}
    {inner items : List Node} (hw : IsTag d σ w t tag σ') (ht : t.isEmpty = false)
    (hv : IsContent d σ' v inner) (hsp : IsSpaces sp) (h : IsContent d σ u items) :
    IsContent d σ (w ++ (v ++ '<' :: '/' :: (t.name ++ (sp ++ '>' :: u))))
      (.element tag inner :: items)

/-! ## Text in front of markup -/

/-- Most characters of text can stand there whatever follows. -/
lemma endsText_eq_false {c : Char} (hc : c ∉ ['<', '&', ']']) (hxml : isXmlChar c = true)
    (s : List Char) : endsText (c :: s) = false := by
  simp only [List.mem_cons, List.not_mem_nil, or_false, not_or] at hc
  have hprefix : "]]>".toList.isPrefixOf (c :: s) = false := by
    rw [Bool.eq_false_iff, Ne, List.isPrefixOf_iff_prefix]
    exact fun h => hc.2.2 (List.cons_prefix_cons.1 h).1.symm
  rw [endsText, beq_false_of_ne hc.1, beq_false_of_ne hc.2.1, hxml, hprefix]
  rfl

/-- Whether text ends does not depend on what stands behind the next bracket. -/
lemma endsText_append_bracket (c : Char) (u s : List Char) :
    endsText (c :: (u ++ '<' :: s)) = endsText (c :: u) := by
  have hprefix : "]]>".toList.isPrefixOf (c :: (u ++ '<' :: s)) =
      "]]>".toList.isPrefixOf (c :: u) := by
    rw [Bool.eq_iff_iff, List.isPrefixOf_iff_prefix, List.isPrefixOf_iff_prefix]
    exact isPrefix_append_iff (by rintro d ⟨⟩; decide) (c :: u)
  simp only [endsText, hprefix]

/-- Pieces of content are content together, where the second begins with markup. -/
lemma IsContent.append {d : Dtd} {σ : Scope} {u v : List Char} {items more : List Node}
    (hu : IsContent d σ u items) (hv : IsContent d σ v more) (hhead : ∀ c ∈ v.head?, c = '<') :
    IsContent d σ (u ++ v) (items ++ more) := by
  -- neither the end of text nor that of a line depends on what begins with markup
  have htext : (∀ c u, endsText (c :: (u ++ v)) = endsText (c :: u)) ∧
      ∀ u, u.head? ≠ some '\n' → (u ++ v).head? ≠ some '\n' := by
    cases v with
    | nil => simp
    | cons c s =>
      rw [hhead c rfl]
      refine ⟨fun c u => endsText_append_bracket c u s, fun u hu => ?_⟩
      cases u with
      | nil => exact fun heq => absurd (Option.some.inj heq) (by decide)
      | cons d u => exact hu
  induction hu with
  | nil => exact hv
  | char hc hreturn _ ih => exact .char ((htext.1 _ _).trans hc) hreturn (ih hv)
  | lineBreak _ ih => exact .lineBreak (ih hv)
  | carriageReturn hu _ ih => exact .carriageReturn (htext.2 _ hu) (ih hv)
  | reference hw hr _ ih =>
    rw [List.append_assoc]
    exact .reference hw hr (ih hv)
  | cdata hw _ ih =>
    rw [List.append_assoc, List.append_assoc]
    exact .cdata hw (ih hv)
  | aside hw _ ih =>
    rw [List.append_assoc]
    exact .aside hw (ih hv)
  | emptyTag hw ht _ ih =>
    rw [List.append_assoc]
    exact .emptyTag hw ht (ih hv)
  | element hw ht hinner hsp _ _ ih =>
    have := IsContent.element hw ht hinner hsp (ih hv)
    simpa using this

/-! ## Reading on -/

/-- Reads a text with the elements open that are on the stack. -/
def readFrom (d : Dtd) (s : List Char) (stack : Stack) : Except Fault (Element × Token) :=
  readRoot (documentStep d) (lex s) stack

variable {d : Dtd}

/-- Whether reading comes to a root and its last token, given where it stands behind a token. -/
def LeadsTo (d : Dtd) (t : Token) (result : Element × Token) : Progress → Prop
  | .complete root => result = (root, t)
  | .inside stack => readFrom d t.rest stack = .ok result

lemma readFrom_of_step {s rest : List Char} {m : Markup} {stack stack' : Stack}
    (hscan : scanMarkup s = .ok (m, rest))
    (hstep : documentStep d ⟨m, s, rest⟩ stack = .ok (.inside stack')) :
    readFrom d s stack = readFrom d rest stack' := by
  rw [readFrom, lex_of_scanMarkup hscan, readRoot, hstep]
  rfl

lemma readFrom_of_complete {s rest : List Char} {m : Markup} {stack : Stack} {root : Element}
    (hscan : scanMarkup s = .ok (m, rest))
    (hstep : documentStep d ⟨m, s, rest⟩ stack = .ok (.complete root)) :
    readFrom d s stack = .ok (root, ⟨m, s, rest⟩) := by
  rw [readFrom, lex_of_scanMarkup hscan, readRoot, hstep]

/-- Where reading comes to an end there is a token to read. -/
lemma exists_token_of_readFrom {s : List Char} {stack : Stack} {result : Element × Token}
    (h : readFrom d s stack = .ok result) :
    ∃ m rest p, scanMarkup s = .ok (m, rest) ∧ documentStep d ⟨m, s, rest⟩ stack = .ok p ∧
      LeadsTo d ⟨m, s, rest⟩ result p := by
  unfold readFrom at h
  cases s using lex_induction with
  | ended =>
    rw [lex, readRoot] at h
    cases h
  | broken s f hlex =>
    rw [hlex, readRoot] at h
    cases h
  | token s m rest hscan _ =>
    rw [lex_of_scanMarkup hscan, readRoot] at h
    split at h
    · cases h
    · next root hstep =>
      cases h
      exact ⟨m, rest, _, hscan, hstep, rfl⟩
    · next stack' hstep => exact ⟨m, rest, _, hscan, hstep, h⟩

/-! ## Reading text character by character -/

@[simp] lemma Stack.add_nil (stack : Stack) : stack.add [] = stack := by
  cases stack <;> rfl

lemma Stack.add_add (items more : List Node) (stack : Stack) :
    (stack.add items).add more = stack.add (more ++ items) := by
  cases stack with
  | nil => rfl
  | cons f fs => simp [Stack.add]

/-- Text is read up to where it ends, and may be none. -/
lemma readFrom_splitText (s : List Char) (stack : Stack) :
    readFrom d s stack =
      readFrom d (splitText s).2 (stack.addText (unifyLineEnds (splitText s).1)) := by
  cases hsplit : splitText s with
  | mk t rest =>
    cases t with
    | nil =>
      have := splitText_append s
      rw [hsplit] at this
      change rest = s at this
      rw [this, unifyLineEnds, Stack.addText, List.map_nil, List.reverse_nil, Stack.add_nil]
    | cons c t =>
      refine readFrom_of_step (m := .text (c :: t)) ?_ rfl
      -- the text does not begin with markup
      obtain ⟨e, s, rfl⟩ : ∃ e u, s = e :: u := by
        cases s with
        | nil => cases hsplit
        | cons e s => exact ⟨e, s, rfl⟩
      have hends : endsText (e :: s) = false := by
        rw [splitText] at hsplit
        split at hsplit
        · cases hsplit
        · next hends => exact Bool.eq_false_iff.2 hends
      have hlt : e ≠ '<' := by
        rintro rfl
        cases hends
      have hamp : e ≠ '&' := by
        rintro rfl
        cases hends
      rw [scanMarkup.eq_3 _ (fun u heq => hlt (List.cons.inj heq).1)
        (fun u heq => hamp (List.cons.inj heq).1), hsplit]

lemma splitText_cons {c : Char} {s : List Char} (h : endsText (c :: s) = false) :
    splitText (c :: s) = (c :: (splitText s).1, (splitText s).2) := by
  rw [splitText, if_neg (Bool.eq_false_iff.1 h)]

/-- Text that begins a run of text is read on its own. -/
lemma readFrom_text {t t' s : List Char} (stack : Stack)
    (hsplit : splitText (t ++ s) = (t ++ (splitText s).1, (splitText s).2))
    (hline : unifyLineEnds (t ++ (splitText s).1) = t' ++ unifyLineEnds (splitText s).1) :
    readFrom d (t ++ s) stack = readFrom d s (stack.addText t') := by
  rw [readFrom_splitText, hsplit, readFrom_splitText s]
  dsimp only
  rw [hline, Stack.addText, Stack.addText, Stack.addText, Stack.add_add, List.map_append,
    List.reverse_append]

lemma readFrom_char {c : Char} {s : List Char} (hc : endsText (c :: s) = false)
    (hreturn : c ≠ '\r') (stack : Stack) :
    readFrom d (c :: s) stack = readFrom d s (stack.addText [c]) := by
  refine readFrom_text (t := [c]) stack (splitText_cons hc) ?_
  rw [List.singleton_append, unifyLineEnds.eq_2, if_neg hreturn]
  · rfl
  · exact fun u heq _ => hreturn heq

lemma readFrom_lineBreak (s : List Char) (stack : Stack) :
    readFrom d ('\r' :: '\n' :: s) stack = readFrom d s (stack.addText ['\n']) := by
  refine readFrom_text (t := ['\r', '\n']) stack ?_ rfl
  have hfeed : endsText ('\n' :: s) = false := rfl
  have hreturn : endsText ('\r' :: '\n' :: s) = false := rfl
  change splitText ('\r' :: '\n' :: s) = _
  rw [splitText_cons hreturn, splitText_cons hfeed]
  rfl

lemma readFrom_carriageReturn {s : List Char} (hs : s.head? ≠ some '\n') (stack : Stack) :
    readFrom d ('\r' :: s) stack = readFrom d s (stack.addText ['\n']) := by
  have hreturn : endsText ('\r' :: s) = false := rfl
  refine readFrom_text (t := ['\r']) stack (splitText_cons hreturn) ?_
  rw [List.singleton_append, unifyLineEnds.eq_2]
  · rfl
  · -- the text behind it does not begin with a line feed
    intro u _ heq
    have := splitText_append s
    rw [heq] at this
    exact hs (by rw [← this]; rfl)

/-! ## What fits the grammar is read -/

/-- Only start tags hold places. -/
lemma eq_of_unplaced {m m' : Markup} (h : m.unplaced = m') (hm : ∀ t, m' ≠ .startTag t) :
    m = m' := by
  cases m with
  | startTag t => exact absurd h.symm (hm _)
  | _ => exact h

lemma step_reference {place rest : List Char} {r : Reference} {c : Char} {stack : Stack}
    (hr : r.char? = some c) :
    documentStep d ⟨.reference r, place, rest⟩ stack = .ok (.inside (stack.addText [c])) := by
  cases r with
  | character n =>
    change charOfNumber? n = some c at hr
    simp only [documentStep, step, hr]
  | entity name =>
    change predefined? name = some c at hr
    simp only [documentStep, step, hr]

/-- A token that leaves the open elements open is passed. -/
lemma readFrom_of_takes {w s : List Char} {m : Markup} {stack stack' : Stack}
    (hw : Takes scanMarkup Markup.unplaced w m) (hm : ∀ t, m ≠ .startTag t)
    (hstep : ∀ place rest, documentStep d ⟨m, place, rest⟩ stack = .ok (.inside stack')) :
    readFrom d (w ++ s) stack = readFrom d s stack' := by
  obtain ⟨m', hscan, hview⟩ := hw s
  rw [eq_of_unplaced hview hm] at hscan
  exact readFrom_of_step hscan (hstep _ _)

/-- The start tag that stands there, and what it does to the open elements. -/
lemma IsTag.step {σ σ' : Scope} {w : List Char} {t : RawTag} {tag : Tag}
    (h : IsTag d σ w t tag σ') (s : List Char) (stack : Stack) (hscope : stack.scope = σ) :
    ∃ t', scanMarkup (w ++ s) = .ok (.startTag t', s) ∧
      documentStep d ⟨.startTag t', w ++ s, s⟩ stack =
        .ok (if t.isEmpty then stack.addElement ⟨tag, []⟩
          else .inside (⟨t.name, tag, σ', []⟩ :: stack)) := by
  obtain ⟨m, hscan, hview⟩ := h.scan s
  cases m with
  | startTag t' =>
    rw [Markup.unplaced, Markup.startTag.injEq] at hview
    subst hview
    subst hscope
    refine ⟨t', hscan, ?_⟩
    have hmeaning := resolveTag_of_unplaced t'.unplaced_unplaced h.meaning (w ++ s)
    change (resolveTag d .document [] stack.scope (w ++ s) t' >>= _) = _
    rw [hmeaning, ok_bind]
    change (if t'.isEmpty = true then _ else _) = Except.ok (if t'.isEmpty = true then _ else _)
    split <;> rfl
  | _ => cases hview

lemma Stack.scope_add (items : List Node) (stack : Stack) :
    (stack.add items).scope = stack.scope := by
  cases stack <;> rfl

lemma Stack.add_ne_nil (items : List Node) {stack : Stack} (h : stack ≠ []) :
    stack.add items ≠ [] := by
  obtain ⟨f, fs, rfl⟩ := List.exists_cons_of_ne_nil h
  exact List.cons_ne_nil _ fs

lemma Stack.addElement_of_ne_nil (e : Element) {stack : Stack} (h : stack ≠ []) :
    stack.addElement e = .inside (stack.add [.element e.tag e.content]) := by
  obtain ⟨f, fs, rfl⟩ := List.exists_cons_of_ne_nil h
  rfl

lemma IsTag.isTagName {σ σ' : Scope} {w : List Char} {t : RawTag} {tag : Tag}
    (h : IsTag d σ w t tag σ') : IsTagName t.name := by
  obtain ⟨m, hscan, hview⟩ := h.scan []
  cases m with
  | startTag t' =>
    cases hview
    exact (eq_of_scanMarkup_startTag hscan).1
  | _ => cases hview

/-- The end tag of an element adds it to the one around it. -/
lemma readFrom_endTag {f : Frame} {stack : Stack} {sp s : List Char} (hstack : stack ≠ [])
    (hname : IsTagName f.written) (hsp : IsSpaces sp) :
    readFrom d ('<' :: '/' :: (f.written ++ (sp ++ '>' :: s))) (f :: stack) =
      readFrom d s (stack.add [.element f.tag f.content.reverse]) := by
  refine readFrom_of_step (scanMarkup_endTag hname hsp s) ?_
  rw [← Stack.addElement_of_ne_nil ⟨f.tag, f.content.reverse⟩ hstack]
  exact if_pos rfl

/-- Whether a text is read as content of this meaning in a scope, up to the bracket behind it and
whatever stands there. -/
def Reads (d : Dtd) (σ : Scope) (w : List Char) (items : List Node) : Prop :=
  ∀ (s : List Char) {stack : Stack}, stack ≠ [] → stack.scope = σ →
    readFrom d (w ++ '<' :: s) stack = readFrom d ('<' :: s) (stack.add items.reverse)

/-- What is read first stands in front of what is read then. -/
lemma Reads.behind {σ : Scope} {w : List Char} {items : List Node} (h : Reads d σ w items)
    (first : List Node) (s : List Char) {stack : Stack} (hstack : stack ≠ [])
    (hscope : stack.scope = σ) :
    readFrom d (w ++ '<' :: s) (stack.add first.reverse) =
      readFrom d ('<' :: s) (stack.add (first ++ items).reverse) := by
  rw [h s (Stack.add_ne_nil _ hstack) (by rw [Stack.scope_add, hscope]), Stack.add_add,
    List.reverse_append]

/-- **Content that fits the grammar is read as the grammar says.** -/
theorem reads_of_isContent {σ : Scope} {w : List Char} {items : List Node}
    (h : IsContent d σ w items) : Reads d σ w items := by
  induction h with
  | nil =>
    intro s stack _ _
    rw [List.reverse_nil, Stack.add_nil, List.nil_append]
  | @char σ c u items hc hreturn _ ih =>
    intro s stack hstack hscope
    have hc' : endsText (c :: (u ++ '<' :: s)) = false := by rw [endsText_append_bracket, hc]
    rw [List.cons_append, readFrom_char hc' hreturn]
    exact ih.behind [.char c] s hstack hscope
  | lineBreak _ ih =>
    intro s stack hstack hscope
    rw [List.cons_append, List.cons_append, readFrom_lineBreak]
    exact ih.behind [.char '\n'] s hstack hscope
  | @carriageReturn σ u items hu _ ih =>
    intro s stack hstack hscope
    have hu' : (u ++ '<' :: s).head? ≠ some '\n' := by
      cases u with
      | nil => exact fun heq => absurd (Option.some.inj heq) (by decide)
      | cons c u => exact hu
    rw [List.cons_append, readFrom_carriageReturn hu']
    exact ih.behind [.char '\n'] s hstack hscope
  | @reference σ w u r c items hw hr _ ih =>
    intro s stack hstack hscope
    rw [List.append_assoc, readFrom_of_takes hw (fun _ => Markup.noConfusion)
      (fun _ _ => step_reference hr)]
    exact ih.behind [.char c] s hstack hscope
  | @cdata σ w t u items hw _ ih =>
    intro s stack hstack hscope
    rw [List.append_assoc, readFrom_of_takes hw (fun _ => Markup.noConfusion) (fun _ _ => rfl)]
    exact ih.behind ((unifyLineEnds t).map .char) s hstack hscope
  | aside hw _ ih =>
    intro s stack hstack hscope
    rw [List.append_assoc, readFrom_of_takes hw (fun _ => Markup.noConfusion) (fun _ _ => rfl)]
    exact ih s hstack hscope
  | @emptyTag σ σ' w u t tag items hw ht _ ih =>
    intro s stack hstack hscope
    obtain ⟨t', hscan, hstep⟩ := hw.step (u ++ '<' :: s) stack hscope
    rw [if_pos ht, Stack.addElement_of_ne_nil _ hstack] at hstep
    rw [List.append_assoc, readFrom_of_step hscan hstep]
    exact ih.behind [.element tag []] s hstack hscope
  | @element σ σ' w v sp u t tag inner items hw ht _ hsp _ ihv ih =>
    intro s stack hstack hscope
    have htext : w ++ (v ++ '<' :: '/' :: (t.name ++ (sp ++ '>' :: u))) ++ '<' :: s =
        w ++ (v ++ '<' :: '/' :: (t.name ++ (sp ++ '>' :: (u ++ '<' :: s)))) := by simp
    obtain ⟨t', hscan, hstep⟩ :=
      hw.step (v ++ '<' :: '/' :: (t.name ++ (sp ++ '>' :: (u ++ '<' :: s)))) stack hscope
    rw [if_neg (Bool.eq_false_iff.1 ht)] at hstep
    -- the content is read with the element open, and the end tag adds it to the one around it
    have hinner := ihv ('/' :: (t.name ++ (sp ++ '>' :: (u ++ '<' :: s))))
      (List.cons_ne_nil ⟨t.name, tag, σ', []⟩ stack) rfl
    have hend := readFrom_endTag (d := d) (f := ⟨t.name, tag, σ', inner.reverse⟩)
      (s := u ++ '<' :: s) hstack hw.isTagName hsp
    dsimp only at hend
    rw [htext, readFrom_of_step hscan hstep, hinner, Stack.add, List.append_nil, hend,
      List.reverse_reverse]
    exact ih.behind [.element tag inner] s hstack hscope

/-! ## What is read fits the grammar -/

/-- Whether a text is content of the innermost open element and its end tag, and reading goes on to
the result behind that. -/
def Closes (d : Dtd) (f : Frame) (fs : Stack) (result : Element × Token) (s : List Char) : Prop :=
  ∃ w items sp rest, IsContent d f.scope w items ∧ IsSpaces sp ∧
    s = w ++ '<' :: '/' :: (f.written ++ (sp ++ '>' :: rest)) ∧
    LeadsTo d ⟨.endTag f.written, '<' :: '/' :: (f.written ++ (sp ++ '>' :: rest)), rest⟩ result
      (Stack.addElement ⟨f.tag, f.content.reverse ++ items⟩ fs)

/-- One more piece of content in front. -/
lemma Closes.behind {f : Frame} {fs : Stack} {result : Element × Token} {s : List Char}
    (v : List Char) (first : List Node)
    (h : Closes d { f with content := first.reverse ++ f.content } fs result s)
    (hrule : ∀ w items r, s = w ++ '<' :: r → IsContent d f.scope w items →
      IsContent d f.scope (v ++ w) (first ++ items)) : Closes d f fs result (v ++ s) := by
  obtain ⟨w, items, sp, rest, hw, hsp, hs, hlead⟩ := h
  refine ⟨v ++ w, first ++ items, sp, rest, hrule w items _ hs hw, hsp, ?_, ?_⟩
  · rw [hs, List.append_assoc]
  · rw [List.reverse_append, List.reverse_reverse, List.append_assoc] at hlead
    exact hlead

lemma exists_char_of_step (hd : d.entities = []) {place rest : List Char} {r : Reference}
    {stack : Stack} {p : Progress}
    (h : documentStep d ⟨.reference r, place, rest⟩ stack = .ok p) :
    ∃ c, r.char? = some c ∧ p = .inside (stack.addText [c]) := by
  cases r with
  | character n =>
    unfold documentStep step at h
    dsimp only at h
    split at h
    · cases h
    · next c hc =>
      cases h
      exact ⟨c, hc, rfl⟩
  | entity name =>
    have hnone : d.entity? name = none := by rw [Dtd.entity?, hd]; rfl
    unfold documentStep step at h
    simp only [hnone] at h
    split at h
    · next c hc =>
      cases h
      exact ⟨c, hc, rfl⟩
    · cases h

/-- Text does not begin with a bracket or an ampersand. -/
lemma ne_text_of_scanMarkup {c : Char} {s t rest : List Char} (hc : c = '<' ∨ c = '&') :
    scanMarkup (c :: s) ≠ .ok (.text t, rest) := by
  intro h
  rcases hc with rfl | rfl
  · cases scanMarkup_cases h with
    | text hs hne hw =>
      obtain ⟨e, t, rfl⟩ := List.exists_cons_of_ne_nil hne
      exact hw (by rw [(List.cons.inj hs).1]; exact List.mem_cons_self)
  · obtain ⟨r, -, hret⟩ := map_eq_ok_iff.1 h
    cases hret

/-- Where text ends without markup, nothing can be read. -/
lemma scanMarkup_of_endsText {c : Char} {s : List Char} {r : Markup × List Char}
    (hc : ¬(c = '<' ∨ c = '&')) (hends : endsText (c :: s) = true) :
    scanMarkup (c :: s) ≠ .ok r := by
  rw [not_or] at hc
  rw [scanMarkup.eq_3 _ (fun u heq => hc.1 (List.cons.inj heq).1)
    (fun u heq => hc.2 (List.cons.inj heq).1), splitText, if_pos hends]
  exact fun h => by cases h

/-- A piece of markup and what fits the grammar behind it. -/
lemma closes_of_token (hd : d.entities = []) {c : Char} {w rest : List Char} {m : Markup}
    {f : Frame} {fs : Stack} {p : Progress} {result : Element × Token} (hc : c = '<' ∨ c = '&')
    (hscan : scanMarkup (c :: (w ++ rest)) = .ok (m, rest))
    (hw : Takes scanMarkup Markup.unplaced (c :: w) m.unplaced)
    (hstep : documentStep d ⟨m, c :: (w ++ rest), rest⟩ (f :: fs) = .ok p)
    (hlead : LeadsTo d ⟨m, c :: (w ++ rest), rest⟩ result p)
    (ih : ∀ {f fs s}, s.length ≤ rest.length → readFrom d s (f :: fs) = .ok result →
      Closes d f fs result s) : Closes d f fs result (c :: (w ++ rest)) := by
  have hcases := step_cases hstep
  cases m with
  | reference r =>
    obtain ⟨e, he, rfl⟩ := exists_char_of_step hd hstep
    exact Closes.behind (c :: w) [.char e] (ih le_rfl hlead)
      fun _ _ _ _ h => .reference hw he h
  | text t => exact absurd hscan (ne_text_of_scanMarkup hc)
  | cdata t =>
    cases hcases
    exact Closes.behind (c :: w) ((unifyLineEnds t).map .char) (ih le_rfl hlead)
      fun _ _ _ _ h => .cdata hw h
  | aside =>
    cases hcases
    exact Closes.behind (c :: w) [] (ih le_rfl hlead)
      fun _ _ _ _ h => .aside hw h
  | declaration => cases hcases
  | broken => cases hcases
  | endTag name =>
    obtain ⟨-, sp, hsp, hs⟩ := eq_of_scanMarkup_endTag hscan
    cases hcases with
    | endTag hstack =>
      obtain ⟨rfl, rfl⟩ := List.cons.inj hstack
      refine ⟨[], [], sp, rest, .nil, hsp, hs, ?_⟩
      rw [List.append_nil, ← hs]
      exact hlead
  | startTag t =>
    cases hcases with
    | emptyTag hempty hr =>
      have htag : IsTag d f.scope (c :: w) t.unplaced _ _ :=
        ⟨hw, resolveTag_of_unplaced t.unplaced_unplaced.symm hr []⟩
      exact Closes.behind (c :: w) [.element _ []] (ih le_rfl hlead)
        fun _ _ _ _ h => .emptyTag htag hempty h
    | @startTag _ resolved scope hempty hr =>
      have htag : IsTag d f.scope (c :: w) t.unplaced resolved scope :=
        ⟨hw, resolveTag_of_unplaced t.unplaced_unplaced.symm hr []⟩
      -- first the content of the element that begins here, then what stands behind its end tag
      obtain ⟨v, inner, sp, rest', hv, hsp, hrest, hlead'⟩ := ih le_rfl hlead
      have hle : rest'.length ≤ rest.length := by
        rw [hrest]
        simp only [List.length_append, List.length_cons]
        omega
      have := Closes.behind (c :: w ++ (v ++ '<' :: '/' :: (t.name ++ (sp ++ ['>']))))
        [.element resolved inner] (ih hle hlead')
        fun u items _ _ h => by simpa using IsContent.element htag hempty hv hsp h
      rw [hrest]
      simpa using this

/-- **Where no entity is declared, what is read fits the grammar**: the content of the innermost
open element up to its end tag. -/
theorem closes_of_readFrom (hd : d.entities = []) {s : List Char} {f : Frame} {fs : Stack}
    {result : Element × Token} (h : readFrom d s (f :: fs) = .ok result) :
    Closes d f fs result s := by
  -- on the length of the text, since an element is read before what stands behind it
  induction hn : s.length using Nat.strongRecOn generalizing s f fs with
  | ind n ih =>
    subst hn
    obtain ⟨m, rest, p, hscan, hstep, hlead⟩ := exists_token_of_readFrom h
    obtain ⟨c, s, rfl⟩ := List.exists_cons_of_ne_nil (l := s) (by rintro rfl; cases hscan)
    by_cases hc : c = '<' ∨ c = '&'
    · obtain ⟨w, rfl, hw⟩ := takes_of_scanMarkup hc hscan
      have hlen : rest.length < (c :: (w ++ rest)).length := length_of_scanMarkup hscan
      exact closes_of_token hd hc hscan hw hstep hlead fun hle h =>
        ih _ (Nat.lt_of_le_of_lt hle hlen) h rfl
    · have hends : endsText (c :: s) = false :=
        Bool.eq_false_iff.2 fun hends => scanMarkup_of_endsText hc hends hscan
      by_cases hreturn : c = '\r'
      · subst hreturn
        by_cases hfeed : s.head? = some '\n'
        · obtain ⟨s, rfl⟩ := List.head?_eq_some_iff.1 hfeed
          rw [readFrom_lineBreak] at h
          have := ih s.length (by rw [List.length_cons, List.length_cons]; omega) h rfl
          exact Closes.behind ['\r', '\n'] [.char '\n'] this
            fun w items r _ hw => .lineBreak hw
        · rw [readFrom_carriageReturn hfeed] at h
          have := ih s.length (by simp) h rfl
          refine Closes.behind ['\r'] [.char '\n'] this ?_
          rintro w items r rfl hw
          refine .carriageReturn (fun heq => hfeed ?_) hw
          change w.head? = _ at heq
          rw [List.head?_append, heq]
          rfl
      · rw [readFrom_char hends hreturn] at h
        have := ih s.length (by simp) h rfl
        refine Closes.behind [c] [.char c] this ?_
        rintro w items r rfl hw
        rw [endsText_append_bracket] at hends
        exact .char hends hreturn hw

end Netconf.Xml
