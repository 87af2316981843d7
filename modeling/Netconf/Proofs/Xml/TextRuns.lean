import Netconf.Proofs.Blank
import Netconf.Proofs.Xml.PlainDocument
import Netconf.Proofs.Xml.PlainPart

/-!
# Runs of text

Content without character data sections, comments and instructions is runs of text with elements
between them (`IsContent.isPlainContent`). A run of text that is read (`IsText`) can be changed in
the blanks around it: what is read then is the same but for blanks around it.
`IsText.exists_joinLines` says this of the line feeds of a run.
-/

namespace Netconf.Xml

open Netconf.Outcome Netconf.Text

/-! ## Text as it is written -/

/-- Whether a text without tags means another one. -/
inductive IsText : List Char → List Char → Prop where
  | nil : IsText [] []
  | char {c : Char} {w s : List Char} (hc : endsText (c :: w) = false) (hreturn : c ≠ '\r')
    (h : IsText w s) : IsText (c :: w) (c :: s)
  | lineBreak {w s : List Char} (h : IsText w s) : IsText ('\r' :: '\n' :: w) ('\n' :: s)
  | carriageReturn {w s : List Char} (hw : w.head? ≠ some '\n') (h : IsText w s) :
    IsText ('\r' :: w) ('\n' :: s)
  | reference {u w s : List Char} {r : Reference} {c : Char}
    (hu : Takes scanMarkup Markup.unplaced u (.reference r)) (hr : r.char? = some c)
    (h : IsText w s) : IsText (u ++ w) (c :: s)

/-- Text is content. -/
lemma IsText.content {w s : List Char} (h : IsText w s) (d : Dtd) (σ : Scope) :
    IsContent d σ w (s.map .char) := by
  induction h with
  | nil => exact .nil
  | char hc hreturn _ ih => exact .char hc hreturn ih
  | lineBreak _ ih => exact .lineBreak ih
  | carriageReturn hw _ ih => exact .carriageReturn hw ih
  | reference hu hr _ ih => exact .reference hu hr ih

/-- How a reference is written. -/
lemma eq_of_takes_reference {u : List Char} {r : Reference}
    (h : Takes scanMarkup Markup.unplaced u (.reference r)) :
    ∃ v, u = '&' :: (v ++ [';']) ∧ IsBare v := by
  obtain ⟨m, hscan, hview⟩ := h []
  cases m with
  | reference r' =>
    rw [List.append_nil] at hscan
    cases scanMarkup_cases hscan with
    | reference hu hr =>
      obtain ⟨v, hv, rfl⟩ := eq_of_scanReference hr
      exact ⟨v, hu, hv⟩
  | _ => cases hview

lemma ne_lineFeed_of_append {u v : List Char} (h : (u ++ v).head? ≠ some '\n') :
    u.head? ≠ some '\n' := by
  cases u with
  | nil => exact fun heq => by cases heq
  | cons c u => exact h

/-! ## Content run by run -/

/-- Whether a text is content of this meaning in a scope, written as runs of text and elements. -/
inductive IsPlainContent (d : Dtd) : Scope → List Char → List Node → Prop where
  | text {σ : Scope} {g s : List Char} (hg : IsText g s) (hopen : '<' ∉ g) :
    IsPlainContent d σ g (s.map .char)
  | emptyTag {σ σ' : Scope} {g s w u : List Char} {t : RawTag} {tag : Tag} {more : List Node}
    (hg : IsText g s) (hopen : '<' ∉ g) (hw : IsTag d σ w t tag σ') (ht : t.isEmpty = true)
    (hu : IsPlainContent d σ u more) :
    IsPlainContent d σ (g ++ (w ++ u)) (s.map .char ++ .element tag [] :: more)
  | element {σ σ' : Scope} {g s w v sp u : List Char} {t : RawTag} {tag : Tag}
    {inner more : List Node} (hg : IsText g s) (hopen : '<' ∉ g) (hw : IsTag d σ w t tag σ')
    (ht : t.isEmpty = false) (hv : IsPlainContent d σ' v inner) (hsp : IsSpaces sp)
    (hu : IsPlainContent d σ u more) :
    IsPlainContent d σ (g ++ (w ++ (v ++ '<' :: '/' :: (t.name ++ (sp ++ '>' :: u)))))
      (s.map .char ++ .element tag inner :: more)

/-- What can stand in front of the first run of text. -/
lemma IsPlainContent.cons {d : Dtd} {σ : Scope} {u w : List Char} {c : Char} {items : List Node}
    (h : IsPlainContent d σ w items) (hu : '<' ∉ u)
    (htext : ∀ {g r s}, w = g ++ r → (r = [] ∨ r.head? = some '<') → IsText g s →
      IsText (u ++ g) (c :: s)) :
    IsPlainContent d σ (u ++ w) (.char c :: items) := by
  have hopen {g : List Char} (hg : '<' ∉ g) : '<' ∉ u ++ g := fun hmem =>
    (List.mem_append.1 hmem).elim hu hg
  cases h with
  | text hg hbare =>
    exact .text (htext (List.append_nil w).symm (Or.inl rfl) hg) (hopen hbare)
  | @emptyTag _ σ' g s w r t tag more hg hbare hw ht hr =>
    obtain ⟨c', w', rfl, -⟩ := hw.starts
    rw [← List.append_assoc]
    exact .emptyTag (htext rfl (Or.inr rfl) hg) (hopen hbare) hw ht hr
  | @element _ σ' g s w v sp r t tag inner more hg hbare hw ht hv hsp hr =>
    obtain ⟨c', w', rfl, -⟩ := hw.starts
    rw [← List.append_assoc]
    exact .element (htext rfl (Or.inr rfl) hg) (hopen hbare) hw ht hv hsp hr

/-- **Content of a plain part is runs of text and elements.** -/
theorem IsContent.isPlainContent {d : Dtd} {σ : Scope} {w : List Char} {items : List Node}
    (h : IsContent d σ w items) (hplain : IsPlainPart w) : IsPlainContent d σ w items := by
  induction h with
  | nil => exact .text .nil List.not_mem_nil
  | @char σ c u items hc hreturn _ ih =>
    have hopen : '<' ≠ c := by
      rintro rfl
      cases hc
    refine IsPlainContent.cons (ih (hplain.of_suffix (List.suffix_cons c u))) (u := [c])
      (by simpa using hopen) ?_
    rintro g r s rfl hr hg
    refine .char ?_ hreturn hg
    rcases hr with rfl | hr
    · rwa [List.append_nil] at hc
    · obtain ⟨r', rfl⟩ := List.head?_eq_some_iff.1 hr
      rwa [endsText_append_bracket] at hc
  | @lineBreak σ u items _ ih =>
    exact IsPlainContent.cons (ih (hplain.of_suffix ⟨['\r', '\n'], rfl⟩)) (u := ['\r', '\n'])
      (by decide) fun _ _ hg => .lineBreak hg
  | @carriageReturn σ u items hu _ ih =>
    refine IsPlainContent.cons (ih (hplain.of_suffix (List.suffix_cons _ u))) (u := ['\r'])
      (by decide) ?_
    rintro g r s rfl hr hg
    exact .carriageReturn (ne_lineFeed_of_append hu) hg
  | @reference σ w u r c items hw hr _ ih =>
    obtain ⟨x, hx, hbare, -⟩ := eq_of_takes_reference hw
    have hopen : '<' ∉ w := by simp [hx, hbare]
    exact (ih (hplain.of_suffix (List.suffix_append w u))).cons hopen
      fun _ _ hg => .reference hw hr hg
  -- what is left out begins with an exclamation mark or is an instruction
  | @cdata σ w t u items hw _ _ =>
    obtain ⟨m, hscan, hview⟩ := hw u
    cases m with
    | cdata t' =>
      cases scanMarkup_cases hscan with
      | @cdata _ r _ hs hr =>
        exact absurd ⟨[], '[' :: r, hs.symm⟩ hplain.noBang
    | _ => cases hview
  | @aside σ w u items hw _ _ =>
    obtain ⟨m, hscan, hview⟩ := hw u
    cases m with
    | aside =>
      cases scanMarkup_cases hscan with
      | @comment r _ hs hr => exact absurd ⟨[], '-' :: '-' :: r, hs.symm⟩ hplain.noBang
      | instruction hs hr =>
        exact absurd hr (hplain.noInstruction _ _ (hs ▸ List.suffix_rfl))
    | _ => cases hview
  | @emptyTag σ σ' w u t tag items hw ht _ ih =>
    exact .emptyTag .nil List.not_mem_nil hw ht (ih (hplain.of_suffix (List.suffix_append w u)))
  | @element σ σ' w v sp u t tag inner items hw ht _ hsp _ ihv ihu =>
    have hinner : IsPlainPart v := (hplain.of_suffix (List.suffix_append w _)).of_append
    have hbehind : IsPlainPart u :=
      hplain.of_suffix ⟨w ++ (v ++ '<' :: '/' :: (t.name ++ (sp ++ ['>']))), by simp⟩
    exact .element .nil List.not_mem_nil hw ht (ihv hinner) hsp (ihu hbehind)

/-! ## Blanks around text -/

/-- Text goes on with what cannot belong to the end of it. -/
lemma IsText.append {w v s t : List Char} (hw : IsText w s) (hv : IsText v t)
    (hhead : ∀ c ∈ v.head?, c ∉ [']', '>', '\n']) : IsText (w ++ v) (s ++ t) := by
  induction hw with
  | nil => exact hv
  | @char c w s hc hreturn _ ih =>
    refine .char ?_ hreturn ih
    rw [endsText, Bool.or_eq_false_iff] at hc ⊢
    obtain ⟨hclass, hcdata⟩ := hc
    refine ⟨hclass, ?_⟩
    rw [Bool.eq_false_iff, Ne, List.isPrefixOf_iff_prefix] at hcdata ⊢
    have hclosing : "]]>".toList ⊆ [']', '>', '\n'] := by decide
    exact fun h => hcdata ((isPrefix_append_iff (fun d hd hmem => hhead d hd (hclosing hmem))
      (c :: w)).1 h)
  | lineBreak _ ih => exact .lineBreak ih
  | @carriageReturn w s hw _ ih =>
    refine .carriageReturn ?_ ih
    cases w with
    | nil => exact fun h => hhead '\n' h (by decide)
    | cons c w => exact hw
  | reference hu hr _ ih =>
    rw [List.append_assoc]
    exact .reference hu hr ih

/-- Whether a document may hold a blank text. -/
structure IsBlankText (u : List Char) : Prop where
  blank : IsBlanks u
  xml : ∀ c ∈ u, isXmlChar c = true

lemma isBlankText_nil : IsBlankText [] := ⟨isBlanks_nil, fun _ hc => absurd hc List.not_mem_nil⟩

lemma isBlankText_cons {c : Char} {u : List Char} :
    IsBlankText (c :: u) ↔ (isBlank c = true ∧ isXmlChar c = true) ∧ IsBlankText u := by
  constructor
  · rintro ⟨hblank, hxml⟩
    rw [IsBlanks, List.forall_mem_cons] at hblank
    rw [List.forall_mem_cons] at hxml
    exact ⟨⟨hblank.1, hxml.1⟩, hblank.2, hxml.2⟩
  · rintro ⟨⟨hblank, hxml⟩, hu⟩
    exact ⟨List.forall_mem_cons.2 ⟨hblank, hu.blank⟩, List.forall_mem_cons.2 ⟨hxml, hu.xml⟩⟩

lemma isXmlChar_of_endsText {c : Char} {s : List Char} (h : endsText (c :: s) = false) :
    isXmlChar c = true := by
  rw [endsText, Bool.or_eq_false_iff, Bool.or_eq_false_iff] at h
  simpa using h.1.2

/-- Blanks in front of text are read as blanks in front of it. -/
lemma IsText.exists_leading {w s : List Char} (h : IsText w s) :
    ∀ {u v : List Char}, w = u ++ v → IsBlanks u → (∀ c ∈ v.head?, isBlank c = false) →
      IsBlankText u ∧ ∃ b t, IsBlanks b ∧ s = b ++ t ∧ IsText v t := by
  have hnone {v s : List Char} (h : IsText v s) :
      IsBlankText [] ∧ ∃ b t, IsBlanks b ∧ s = b ++ t ∧ IsText v t :=
    ⟨isBlankText_nil, [], s, isBlanks_nil, rfl, h⟩
  induction h with
  | nil =>
    intro u v hw _ _
    obtain ⟨rfl, rfl⟩ := List.append_eq_nil_iff.1 hw.symm
    exact hnone .nil
  | @char c w s hc hreturn h ih =>
    intro u v hw hu hv
    cases u with
    | nil =>
      rw [List.nil_append] at hw
      exact hnone (hw ▸ .char hc hreturn h)
    | cons d u =>
      obtain ⟨rfl, rfl⟩ := List.cons.inj hw
      rw [IsBlanks, List.forall_mem_cons] at hu
      obtain ⟨hblank, b, t, hb, rfl, ht⟩ := ih rfl hu.2 hv
      exact ⟨isBlankText_cons.2 ⟨⟨hu.1, isXmlChar_of_endsText hc⟩, hblank⟩, c :: b, t,
        List.forall_mem_cons.2 ⟨hu.1, hb⟩, rfl, ht⟩
  | @lineBreak w s h ih =>
    intro u v hw hu hv
    match u with
    | [] =>
      rw [List.nil_append] at hw
      exact hnone (hw ▸ .lineBreak h)
    | [d] =>
      -- the rest would begin in the middle of a line end
      obtain ⟨-, rfl⟩ := List.cons.inj hw
      cases hv '\n' rfl
    | d :: e :: u =>
      obtain ⟨rfl, htail⟩ := List.cons.inj hw
      obtain ⟨rfl, rfl⟩ := List.cons.inj htail
      rw [IsBlanks, List.forall_mem_cons, List.forall_mem_cons] at hu
      obtain ⟨hblank, b, t, hb, rfl, ht⟩ := ih rfl hu.2.2 hv
      refine ⟨isBlankText_cons.2 ⟨⟨hu.1, by decide⟩, isBlankText_cons.2
        ⟨⟨hu.2.1, by decide⟩, hblank⟩⟩, '\n' :: b, t, ?_, rfl, ht⟩
      exact List.forall_mem_cons.2 ⟨hu.2.1, hb⟩
  | @carriageReturn w s hhead h ih =>
    intro u v hw hu hv
    cases u with
    | nil =>
      rw [List.nil_append] at hw
      exact hnone (hw ▸ .carriageReturn hhead h)
    | cons d u =>
      obtain ⟨rfl, rfl⟩ := List.cons.inj hw
      rw [IsBlanks, List.forall_mem_cons] at hu
      obtain ⟨hblank, b, t, hb, rfl, ht⟩ := ih rfl hu.2 hv
      exact ⟨isBlankText_cons.2 ⟨⟨hu.1, by decide⟩, hblank⟩, '\n' :: b, t,
        List.forall_mem_cons.2 ⟨by decide, hb⟩, rfl, ht⟩
  | @reference x w s r c hx hr h ih =>
    intro u v hw hu hv
    cases u with
    | nil =>
      rw [List.nil_append] at hw
      exact hnone (hw ▸ .reference hx hr h)
    | cons d u =>
      obtain ⟨y, rfl, -⟩ := eq_of_takes_reference hx
      obtain ⟨rfl, -⟩ := List.cons.inj hw
      cases hu '&' List.mem_cons_self

lemma IsText.eq_nil {s : List Char} (h : IsText [] s) : s = [] := by
  generalize hw : [] = w at h
  cases h with
  | nil => rfl
  | reference hu _ _ =>
    obtain ⟨v, rfl, -⟩ := eq_of_takes_reference hu
    cases hw
  | _ => cases hw

/-- A blank text is read as blanks. -/
lemma IsText.blanks {w s : List Char} (h : IsText w s) (hw : IsBlanks w) :
    IsBlankText w ∧ IsBlanks s := by
  obtain ⟨hblank, b, t, hb, rfl, ht⟩ := h.exists_leading (List.append_nil w).symm hw
    (fun c hc => by cases hc)
  rw [ht.eq_nil, List.append_nil]
  exact ⟨hblank, hb⟩

/-- Where text does not end, it does not end without what follows it either. -/
lemma endsText_of_append {c : Char} {u v : List Char} (h : endsText (c :: (u ++ v)) = false) :
    endsText (c :: u) = false := by
  rw [endsText, Bool.or_eq_false_iff] at h ⊢
  obtain ⟨hclass, hcdata⟩ := h
  refine ⟨hclass, ?_⟩
  rw [Bool.eq_false_iff, Ne, List.isPrefixOf_iff_prefix] at hcdata ⊢
  exact fun hfull => hcdata (hfull.trans (List.prefix_append (c :: u) v))

lemma getLast?_tail {c : Char} {u : List Char} {p : Char → Prop}
    (h : ∀ d ∈ (c :: u).getLast?, p d) : ∀ d ∈ u.getLast?, p d := by
  cases u with
  | nil => exact fun d hd => by cases hd
  | cons e u => rwa [List.getLast?_cons_cons] at h

/-- A reference does not end with a blank: blanks at the end of a text stand behind the reference
that it begins with. -/
lemma exists_behind_reference {x w u v : List Char} {r : Reference}
    (hx : Takes scanMarkup Markup.unplaced x (.reference r)) (h : x ++ w = u ++ v)
    (hv : IsBlanks v) : ∃ u', u = x ++ u' ∧ w = u' ++ v := by
  rcases List.append_eq_append_iff.1 h with ⟨u', rfl, rfl⟩ | ⟨v', hxu, rfl⟩
  · exact ⟨u', rfl, rfl⟩
  · cases v' with
    | nil => exact ⟨[], by rw [hxu, List.append_nil, List.append_nil], rfl⟩
    | cons d v' =>
      obtain ⟨y, rfl, -⟩ := eq_of_takes_reference hx
      have hlast : ';' ∈ d :: v' := by
        have := congrArg List.getLast? hxu
        rw [← List.cons_append, List.getLast?_concat, List.getLast?_append,
          Option.or_of_isSome (by simp)] at this
        exact List.mem_of_getLast? this.symm
      cases hv ';' (List.mem_append_left w hlast)

/-- Blanks behind text are read as blanks behind it. -/
lemma IsText.exists_trailing {w s : List Char} (h : IsText w s) :
    ∀ {u v : List Char}, w = u ++ v → IsBlanks v → (∀ c ∈ u.getLast?, isBlank c = false) →
      IsBlankText v ∧ ∃ t b, IsBlanks b ∧ s = t ++ b ∧ IsText u t := by
  -- in front of nothing but blanks there is no text
  have hnone {v s : List Char} (h : IsText v s) (hv : IsBlanks v) :
      IsBlankText v ∧ ∃ t b, IsBlanks b ∧ s = t ++ b ∧ IsText [] t :=
    ⟨(h.blanks hv).1, [], s, (h.blanks hv).2, rfl, .nil⟩
  induction h with
  | nil =>
    intro u v hw _ _
    obtain ⟨rfl, rfl⟩ := List.append_eq_nil_iff.1 hw.symm
    exact ⟨isBlankText_nil, [], [], isBlanks_nil, rfl, .nil⟩
  | @char c w s hc hreturn h ih =>
    intro u v hw hv hu
    cases u with
    | nil =>
      rw [List.nil_append] at hw
      exact hnone (hw ▸ .char hc hreturn h) hv
    | cons d u =>
      obtain ⟨rfl, rfl⟩ := List.cons.inj hw
      obtain ⟨hblank, t, b, hb, rfl, ht⟩ := ih rfl hv (getLast?_tail hu)
      exact ⟨hblank, c :: t, b, hb, rfl, .char (endsText_of_append hc) hreturn ht⟩
  | @lineBreak w s h ih =>
    intro u v hw hv hu
    match u with
    | [] =>
      rw [List.nil_append] at hw
      exact hnone (hw ▸ .lineBreak h) hv
    | [d] =>
      obtain ⟨rfl, -⟩ := List.cons.inj hw
      cases hu '\r' rfl
    | d :: e :: u =>
      obtain ⟨rfl, htail⟩ := List.cons.inj hw
      obtain ⟨rfl, rfl⟩ := List.cons.inj htail
      obtain ⟨hblank, t, b, hb, rfl, ht⟩ := ih rfl hv (getLast?_tail (getLast?_tail hu))
      exact ⟨hblank, '\n' :: t, b, hb, rfl, .lineBreak ht⟩
  | @carriageReturn w s hhead h ih =>
    intro u v hw hv hu
    cases u with
    | nil =>
      rw [List.nil_append] at hw
      exact hnone (hw ▸ .carriageReturn hhead h) hv
    | cons d u =>
      obtain ⟨rfl, rfl⟩ := List.cons.inj hw
      obtain ⟨hblank, t, b, hb, rfl, ht⟩ := ih rfl hv (getLast?_tail hu)
      exact ⟨hblank, '\n' :: t, b, hb, rfl, .carriageReturn (ne_lineFeed_of_append hhead) ht⟩
  | @reference x w s r c hx hr h ih =>
    intro u v hw hv hu
    obtain ⟨u', rfl, rfl⟩ := exists_behind_reference hx hw hv
    have hu' : ∀ c ∈ u'.getLast?, isBlank c = false := by
      intro d hd
      exact hu d (by rw [List.getLast?_append, Option.mem_def.1 hd]; rfl)
    obtain ⟨hblank, t, b, hb, rfl, ht⟩ := ih rfl hv hu'
    exact ⟨hblank, c :: t, b, hb, rfl, .reference hx hr ht⟩

/-- Blanks without line feeds in front of text are text. -/
lemma IsText.exists_blanks {w s u : List Char} (h : IsText w s) (hu : IsBlankText u)
    (hfeed : '\n' ∉ u) (hhead : w.head? ≠ some '\n') :
    ∃ b, IsBlanks b ∧ IsText (u ++ w) (b ++ s) := by
  induction u with
  | nil => exact ⟨[], isBlanks_nil, h⟩
  | cons c u ih =>
    rw [isBlankText_cons] at hu
    rw [List.mem_cons, not_or] at hfeed
    obtain ⟨b, hb, ht⟩ := ih hu.2 hfeed.2
    by_cases hc : c = '\r'
    · refine ⟨'\n' :: b, List.forall_mem_cons.2 ⟨by decide, hb⟩, ?_⟩
      rw [hc]
      refine .carriageReturn ?_ ht
      cases u with
      | nil => exact hhead
      | cons d u =>
        intro heq
        exact hfeed.2 (Option.some.inj heq ▸ List.mem_cons_self)
    · refine ⟨c :: b, List.forall_mem_cons.2 ⟨hu.1.1, hb⟩, .char ?_ hc ht⟩
      refine endsText_eq_false ?_ hu.1.2 _
      intro hmem
      have : isBlank c = false := by
        simp only [List.mem_cons, List.not_mem_nil, or_false] at hmem
        rcases hmem with rfl | rfl | rfl <;> decide
      rw [hu.1.1] at this
      cases this

/-! ## Line feeds around text -/

/-- A text with its lines joined: without its line feeds. -/
def joinLines (s : List Char) : List Char := s.filter (· != '\n')

@[simp] lemma joinLines_append (s t : List Char) :
    joinLines (s ++ t) = joinLines s ++ joinLines t := List.filter_append ..

@[simp] lemma joinLines_lineFeed (s : List Char) : joinLines ('\n' :: s) = joinLines s := rfl

lemma joinLines_cons_of_ne {c : Char} (hc : c ≠ '\n') (s : List Char) :
    joinLines (c :: s) = c :: joinLines s := List.filter_cons_of_pos (bne_iff_ne.2 hc)

lemma joinLines_of_not_mem {s : List Char} (h : '\n' ∉ s) : joinLines s = s := by
  rw [joinLines, List.filter_eq_self]
  intro c hc
  rw [bne_iff_ne]
  rintro rfl
  exact h hc

/-- A tag on one line stays as it is. -/
lemma joinLines_tag {q : List Char} (hq : '\n' ∉ q) (r : List Char) :
    joinLines (q ++ '>' :: r) = q ++ '>' :: joinLines r := by
  rw [joinLines_append, joinLines_of_not_mem hq, joinLines_cons_of_ne (by decide)]

lemma not_mem_joinLines (s : List Char) : '\n' ∉ joinLines s := by
  intro h
  simpa using (List.mem_filter.1 h).2

lemma mem_of_mem_joinLines {c : Char} {s : List Char} (h : c ∈ joinLines s) : c ∈ s :=
  (List.mem_filter.1 h).1

lemma trimStart_joinLines (s : List Char) : trimStart (joinLines s) = joinLines (trimStart s) := by
  induction s with
  | nil => rfl
  | cons c s ih =>
    by_cases hfeed : c = '\n'
    · rw [hfeed]
      exact ih
    · rw [joinLines_cons_of_ne hfeed, trimStart, trimStart]
      by_cases hc : isBlank c = true
      · rw [List.dropWhile_cons_of_pos hc, List.dropWhile_cons_of_pos hc]
        exact ih
      · rw [List.dropWhile_cons_of_neg hc, List.dropWhile_cons_of_neg hc,
          joinLines_cons_of_ne hfeed]

lemma trim_joinLines (s : List Char) : trim (joinLines s) = joinLines (trim s) := by
  have hend (s : List Char) : trimEnd (joinLines s) = joinLines (trimEnd s) := by
    have hreverse := trimStart_joinLines s.reverse
    rw [joinLines, joinLines, List.filter_reverse] at hreverse
    rw [trimEnd, trimEnd, joinLines, joinLines, List.filter_reverse, ← trimStart, hreverse]
    rfl
  rw [trim, trim, trimStart_joinLines, hend]

lemma isBlanks_joinLines {s : List Char} (h : IsBlanks s) : IsBlanks (joinLines s) :=
  fun c hc => h c (mem_of_mem_joinLines hc)

lemma isBlankText_joinLines {s : List Char} (h : IsBlankText s) :
    IsBlankText (joinLines s) :=
  ⟨isBlanks_joinLines h.blank, fun c hc => h.xml c (mem_of_mem_joinLines hc)⟩

/-- What is left of blanks begins with nothing that could belong to text in front of it. -/
lemma head?_joinLines_of_isBlanks {s : List Char} (h : IsBlanks s) :
    ∀ c ∈ (joinLines s).head?, c ∉ [']', '>', '\n'] := by
  intro c hc hmem
  have hleft := List.mem_of_head? hc
  have hblank := h c (mem_of_mem_joinLines hleft)
  rcases List.mem_cons.1 hmem with rfl | hmem
  · cases hblank
  rcases List.mem_cons.1 hmem with rfl | hmem
  · cases hblank
  · rw [List.mem_singleton.1 hmem] at hleft
    exact not_mem_joinLines s hleft

lemma isSpaces_joinLines {s : List Char} (h : IsSpaces s) : IsSpaces (joinLines s) :=
  fun c hc => h c (mem_of_mem_joinLines hc)

/-- **Line feeds in the blanks around text do not matter** but for blanks around what is read. -/
theorem IsText.exists_joinLines {w s : List Char} (h : IsText w s) (hw : '\n' ∉ trim w) :
    ∃ t, IsText (joinLines w) t ∧ trim t = trim s := by
  obtain ⟨u, v, hu, hv, heq⟩ := exists_blanks_of_trim w
  by_cases hnil : trim w = []
  · rw [hnil, List.nil_append] at heq
    have hblanks : IsBlanks w := by
      rw [heq]
      exact fun c hc => (List.mem_append.1 hc).elim (hu c) (hv c)
    obtain ⟨hblank, hs⟩ := h.blanks hblanks
    obtain ⟨b, hb, ht⟩ := IsText.nil.exists_blanks (isBlankText_joinLines hblank)
      (not_mem_joinLines w) (fun h => by cases h)
    rw [List.append_nil, List.append_nil] at ht
    exact ⟨b, ht, by rw [trim_of_isBlanks hb, trim_of_isBlanks hs]⟩
  · -- what is left keeps its characters, and the blanks around it can be written anew
    have hfirst : ∀ c ∈ (trim w ++ v).head?, isBlank c = false := by
      intro c hc
      obtain ⟨d, r, hd⟩ := List.exists_cons_of_ne_nil hnil
      refine isBlank_of_mem_head?_trim (s := w) ?_
      rwa [hd] at hc ⊢
    obtain ⟨hblank, b, s', hb, rfl, hs⟩ := h.exists_leading heq hu hfirst
    obtain ⟨hblank', t, b', hb', rfl, ht⟩ := hs.exists_trailing rfl hv
      fun c hc => isBlank_of_mem_getLast?_trimEnd (s := trimStart w) hc
    obtain ⟨r, hr, hbehind⟩ := IsText.nil.exists_blanks (isBlankText_joinLines hblank')
      (not_mem_joinLines v) (fun h => by cases h)
    rw [List.append_nil, List.append_nil] at hbehind
    have hfeed : (trim w ++ joinLines v).head? ≠ some '\n' := by
      intro hc
      exact (List.mem_append.1 (List.mem_of_head? hc)).elim hw (not_mem_joinLines v)
    obtain ⟨l, hl, hwhole⟩ := (ht.append hbehind (head?_joinLines_of_isBlanks hv)).exists_blanks
      (isBlankText_joinLines hblank) (not_mem_joinLines u) hfeed
    refine ⟨_, ?_, (trim_outer hl hr t).trans (trim_outer hb hb' t).symm⟩
    nth_rewrite 1 [heq]
    rwa [joinLines_append, joinLines_append, joinLines_of_not_mem hw]

end Netconf.Xml
