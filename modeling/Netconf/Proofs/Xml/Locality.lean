import Netconf.Proofs.Xml.Written

/-!
# What is scanned does not depend on what follows

A scanner that takes something from the start of a text takes the same, and reads it as the same,
when the text goes on differently behind it (`Takes`). So a piece of markup keeps its meaning when
it is moved into another text. Only the places that are kept with it change, and `unplaced` forgets
them. Text and names are the exceptions: they go on as far as they can.
-/

namespace Netconf.Xml

open Netconf.Outcome Netconf.Text

/-! ## Places -/

/-- A part of a value without its place. -/
def ValuePart.unplaced : ValuePart → ValuePart
  | .char c => .char c
  | .reference r _ => .reference r []

/-- An attribute without its place and those in its value. -/
def RawAttribute.unplaced (a : RawAttribute) : RawAttribute :=
  ⟨a.name, a.value.map ValuePart.unplaced, []⟩

/-- A start tag without the places in it. -/
def RawTag.unplaced (t : RawTag) : RawTag :=
  { t with attributes := t.attributes.map RawAttribute.unplaced }

@[simp] lemma RawTag.name_unplaced (t : RawTag) : t.unplaced.name = t.name := rfl

/-- A token without the places in it. -/
def Markup.unplaced : Markup → Markup
  | .startTag t => .startTag t.unplaced
  | m => m

@[simp] lemma ValuePart.unplaced_unplaced (p : ValuePart) : p.unplaced.unplaced = p.unplaced := by
  cases p <;> rfl

@[simp] lemma RawAttribute.unplaced_unplaced (a : RawAttribute) :
    a.unplaced.unplaced = a.unplaced := by
  simp [RawAttribute.unplaced]

@[simp] lemma RawTag.unplaced_unplaced (t : RawTag) : t.unplaced.unplaced = t.unplaced := by
  simp [RawTag.unplaced]

/-- Whether a scanner takes a text, whatever follows it, and what it then reads looks like `b`. -/
def Takes {α β : Type} (scan : List Char → Except Stop (α × List Char)) (view : α → β)
    (w : List Char) (b : β) : Prop :=
  ∀ rest, ∃ a, scan (w ++ rest) = .ok (a, rest) ∧ view a = b

/-! ## White space and given characters -/

lemma span_of_head {α : Type} {p : α → Bool} {s : List α} (h : ∀ a ∈ s.head?, p a = false) :
    s.takeWhile p = [] ∧ s.dropWhile p = s := by
  cases s with
  | nil => exact ⟨rfl, rfl⟩
  | cons a s =>
    have ha : ¬ p a = true := by simpa using h a rfl
    exact ⟨List.takeWhile_cons_of_neg ha, List.dropWhile_cons_of_neg ha⟩

lemma skipSpace_append {sp s : List Char} (hsp : IsSpaces sp)
    (hs : ∀ c ∈ s.head?, isSpace c = false) : skipSpace (sp ++ s) = s := by
  rw [skipSpace, List.dropWhile_append_of_pos hsp, (span_of_head hs).2]

@[simp] lemma scanChar_cons (c : Char) (s : List Char) : scanChar c (c :: s) = .ok ((), s) :=
  if_pos rfl

/-! ## Names -/

/-- A name is read where no character of names follows it. -/
lemma scanName_append {n rest : List Char} (hn : IsName n)
    (hrest : ∀ c ∈ rest.head?, isNameChar c = false) : scanName (n ++ rest) = .ok (n, rest) := by
  obtain ⟨c, s, rfl, hc, hs⟩ := hn
  have hstop := span_of_head hrest
  rw [List.cons_append, scanName, if_pos hc, List.takeWhile_append_of_pos hs,
    List.dropWhile_append_of_pos hs, hstop.1, hstop.2, List.append_nil]

/-- A qualified name is read where neither a character of names nor a colon follows it. -/
lemma scanQName_append {n rest : List Char} (hn : IsQName n)
    (hrest : ∀ c ∈ rest.head?, isQNameChar c = false) : scanQName (n ++ rest) = .ok (n, rest) := by
  have hname : ∀ c ∈ rest.head?, isNameChar c = false := by
    intro c hc
    have := hrest c hc
    rw [isQNameChar, Bool.or_eq_false_iff] at this
    exact this.1
  rcases hn with hn | ⟨q, b, hq, hb, rfl⟩
  · rw [scanQName, scanName_append hn hname, ok_bind]
    cases rest with
    | nil => rfl
    | cons c rest =>
      -- what follows is no colon
      have hc : c ≠ ':' := by
        rintro rfl
        cases hrest ':' rfl
      dsimp only
      split
      · next heq => exact absurd (List.cons.inj heq).1 hc
      · rfl
  · rw [List.append_assoc, List.cons_append, scanQName,
      scanName_append hq (by rintro c ⟨⟩; decide), ok_bind]
    change (scanName (b ++ rest) >>= fun r => pure (q ++ ':' :: r.1, r.2)) = _
    rw [scanName_append hb hname]
    rfl

/-! ## References -/

lemma takes_of_scanNumber {base : ℕ} {p : Char → Bool} {s rest : List Char} {r : Reference}
    (hp : p ';' = false) (h : Reference.scanNumber base p s = .ok (r, rest)) :
    ∃ w, s = w ++ rest ∧ Takes (Reference.scanNumber base p) id w r := by
  unfold Reference.scanNumber at h
  dsimp only at h
  split at h
  · next d ds rest' hdigits hdrop =>
    simp only [Except.ok.injEq, Prod.mk.injEq] at h
    obtain ⟨rfl, rfl⟩ := h
    refine ⟨s.takeWhile p ++ [';'], ?_, ?_⟩
    · rw [List.append_assoc, List.singleton_append, ← hdrop, List.takeWhile_append_dropWhile]
    · intro rest
      have hds : ∀ c ∈ s.takeWhile p, p c = true := fun c hc => List.mem_takeWhile_imp hc
      have hsemi : ¬ p ';' = true := by rw [hp]; decide
      refine ⟨.character (numeralValue base (s.takeWhile p)), ?_, rfl⟩
      rw [List.append_assoc, List.singleton_append, Reference.scanNumber,
        List.takeWhile_append_of_pos hds, List.dropWhile_append_of_pos hds,
        List.takeWhile_cons_of_neg hsemi, List.dropWhile_cons_of_neg hsemi, List.append_nil,
        hdigits]
      rfl
  · cases h

/-- The name of an entity with a semicolon behind it. -/
lemma takes_entity {n : List Char} (hn : IsName n) :
    Takes Reference.scan id (n ++ [';']) (.entity n) := by
  intro rest
  refine ⟨.entity n, ?_, rfl⟩
  obtain ⟨c, s, rfl, hc, -⟩ := id hn
  have hhash : c ≠ '#' := ne_of_class hc (by decide)
  have hname : scanName (c :: s ++ ';' :: rest) = .ok (c :: s, ';' :: rest) :=
    scanName_append hn (by rintro c ⟨⟩; decide)
  rw [List.append_assoc, List.singleton_append, Reference.scan.eq_3, hname, ok_bind]
  · rfl
  · intro t heq
    exact hhash (List.cons.inj heq).1
  · intro t heq
    exact hhash (List.cons.inj heq).1

lemma takes_of_scanReference {s rest : List Char} {r : Reference}
    (h : Reference.scan s = .ok (r, rest)) :
    ∃ w, s = w ++ rest ∧ Takes Reference.scan id w r := by
  unfold Reference.scan at h
  split at h
  · obtain ⟨w, rfl, hw⟩ := takes_of_scanNumber (by decide) h
    exact ⟨'#' :: 'x' :: w, rfl, fun rest => by simpa [Reference.scan] using hw rest⟩
  · next s hx =>
    obtain ⟨w, rfl, hw⟩ := takes_of_scanNumber (by decide) h
    refine ⟨'#' :: w, rfl, fun rest => ?_⟩
    -- the first digit is no letter
    have hx' : ∀ t, w ++ rest = 'x' :: t → False := by
      cases w with
      | nil => obtain ⟨r', hr', -⟩ := hw []; cases hr'
      | cons c w => exact fun t heq => hx (w ++ _) (by rw [List.cons_append, (List.cons.inj heq).1])
    obtain ⟨r', hr', hview⟩ := hw rest
    exact ⟨r', by rw [List.cons_append, Reference.scan.eq_2 _ hx', hr'], hview⟩
  · obtain ⟨⟨name, r₁⟩, hname, htail⟩ := bind_eq_ok_iff.1 h
    obtain ⟨⟨u, r₂⟩, hsemi, hret⟩ := bind_eq_ok_iff.1 htail
    obtain ⟨hn, rfl⟩ := eq_of_scanName hname
    cases hret
    refine ⟨name ++ [';'], ?_, takes_entity hn⟩
    rw [eq_of_scanChar hsemi, List.append_assoc, List.singleton_append]

/-! ## Attribute values -/

lemma takes_char {c : Char} (hamp : c ≠ '&') (hc : c ≠ '<' ∧ isXmlChar c = true) :
    Takes scanValuePart ValuePart.unplaced [c] (.char c) := by
  intro rest
  refine ⟨.char c, ?_, rfl⟩
  rw [List.singleton_append, scanValuePart.eq_3 _ _ fun h => hamp h]
  exact if_pos hc

lemma takes_reference {w : List Char} {r : Reference} (hw : Takes Reference.scan id w r) :
    Takes scanValuePart ValuePart.unplaced ('&' :: w) (.reference r []) := by
  intro rest
  obtain ⟨r', hr', rfl⟩ := hw rest
  refine ⟨.reference r' ('&' :: (w ++ rest)), ?_, rfl⟩
  rw [List.cons_append, scanValuePart, hr']
  rfl

lemma takes_of_scanValuePart {s rest : List Char} {p : ValuePart}
    (h : scanValuePart s = .ok (p, rest)) :
    ∃ w, s = w ++ rest ∧ Takes scanValuePart ValuePart.unplaced w p.unplaced := by
  unfold scanValuePart at h
  split at h
  · cases h
  · obtain ⟨⟨r, r'⟩, hr, hret⟩ := bind_eq_ok_iff.1 h
    obtain ⟨w, rfl, hw⟩ := takes_of_scanReference hr
    cases hret
    exact ⟨'&' :: w, rfl, takes_reference hw⟩
  · next c s hamp =>
    split at h
    · next hc =>
      cases h
      exact ⟨[c], rfl, takes_char (fun heq => hamp heq) hc⟩
    · cases h

lemma scanValue_quote (quote : Char) (s : List Char) :
    scanValue quote (quote :: s) = .ok ([], s) := by
  rw [scanValue, if_pos rfl]

/-- A value goes on behind its first part. -/
lemma scanValue_part {quote : Char} {s rest : List Char} {p : ValuePart}
    (h : scanValuePart s = .ok (p, rest)) (hquote : s.head? ≠ some quote) :
    scanValue quote s = (scanValue quote rest).map fun (ps, r) => (p :: ps, r) := by
  cases s with
  | nil => cases h
  | cons c s =>
    have hc : c ≠ quote := fun heq => hquote (congrArg some heq)
    rw [scanValue, if_neg hc]
    split
    · next heq => rw [h] at heq; cases heq
    · next heq =>
      rw [h] at heq
      cases heq
      rfl

lemma takes_scanValue_nil (quote : Char) :
    Takes (scanValue quote) (List.map ValuePart.unplaced) [quote] [] :=
  fun rest => ⟨[], scanValue_quote quote rest, rfl⟩

lemma takes_scanValue_cons {quote : Char} {w w' : List Char} {p : ValuePart} {ps : List ValuePart}
    (hw : Takes scanValuePart ValuePart.unplaced w p) (hquote : w.head? ≠ some quote)
    (hw' : Takes (scanValue quote) (List.map ValuePart.unplaced) w' ps) :
    Takes (scanValue quote) (List.map ValuePart.unplaced) (w ++ w') (p :: ps) := by
  intro rest
  obtain ⟨p', hp', rfl⟩ := hw (w' ++ rest)
  obtain ⟨ps', hps', rfl⟩ := hw' rest
  refine ⟨p' :: ps', ?_, rfl⟩
  have hhead : (w ++ (w' ++ rest)).head? ≠ some quote := by
    cases w with
    | nil =>
      -- a part of a value is not empty
      obtain ⟨p'', hp'', -⟩ := hw []
      cases hp''
    | cons c w => exact hquote
  rw [List.append_assoc, scanValue_part hp' hhead, hps']
  rfl

lemma takes_of_scanValue {quote : Char} {s rest : List Char} {v : List ValuePart}
    (h : scanValue quote s = .ok (v, rest)) :
    ∃ w, s = w ++ rest ∧
      Takes (scanValue quote) (List.map ValuePart.unplaced) w (v.map ValuePart.unplaced) := by
  fun_induction scanValue quote s generalizing v rest with
  | case1 => cases h
  | case2 tail =>
    cases h
    exact ⟨[quote], rfl, takes_scanValue_nil quote⟩
  | case3 => cases h
  | case4 c tail hc p r hp hlt ih =>
    obtain ⟨⟨ps, r'⟩, hrest, hret⟩ := map_eq_ok_iff.1 h
    cases hret
    obtain ⟨w, hs, hw⟩ := takes_of_scanValuePart hp
    obtain ⟨w', rfl, hw'⟩ := ih hrest
    refine ⟨w ++ w', by rw [hs, List.append_assoc], takes_scanValue_cons hw ?_ hw'⟩
    cases w with
    | nil =>
      obtain ⟨p'', hp'', -⟩ := hw []
      cases hp''
    | cons d w =>
      obtain ⟨rfl, -⟩ := List.cons.inj hs
      exact fun heq => hc (Option.some.inj heq)

/-! ## Start tags -/

lemma scanQuote_cons {quote : Char} (h : quote = '\x22' ∨ quote = '\x27') (s : List Char) :
    scanQuote (quote :: s) = .ok (quote, s) := if_pos h

lemma isSpace_quote {quote : Char} (h : quote = '\x22' ∨ quote = '\x27') :
    isSpace quote = false := by
  rcases h with rfl | rfl <;> decide

/-- White space and a character that is none end a name. -/
lemma head_of_spaces {p : Char → Bool} {sp s : List Char} {c : Char} (hsp : IsSpaces sp)
    (hspace : ∀ d, isSpace d = true → p d = false) (hc : p c = false) :
    ∀ d ∈ (sp ++ c :: s).head?, p d = false := by
  cases sp with
  | nil =>
    rintro d ⟨⟩
    exact hc
  | cons e sp =>
    rintro d ⟨⟩
    exact hspace e (hsp e List.mem_cons_self)

lemma isQNameChar_of_isSpace {c : Char} (h : isSpace c = true) : isQNameChar c = false := by
  rcases isSpace_iff.1 h with rfl | rfl | rfl | rfl <;> decide

lemma takes_scanAttribute {name sp sp' w : List Char} {quote : Char} {v : List ValuePart}
    (hname : IsQName name) (hsp : IsSpaces sp) (hsp' : IsSpaces sp')
    (hquote : quote = '\x22' ∨ quote = '\x27')
    (hw : Takes (scanValue quote) (List.map ValuePart.unplaced) w v) :
    Takes scanAttribute RawAttribute.unplaced (name ++ (sp ++ '=' :: (sp' ++ quote :: w)))
      ⟨name, v, []⟩ := by
  intro rest
  obtain ⟨v', hv', rfl⟩ := hw rest
  refine ⟨⟨name, v', name ++ (sp ++ '=' :: (sp' ++ quote :: w)) ++ rest⟩, ?_, rfl⟩
  have htext : name ++ (sp ++ '=' :: (sp' ++ quote :: w)) ++ rest =
      name ++ (sp ++ '=' :: (sp' ++ quote :: (w ++ rest))) := by
    simp only [List.append_assoc, List.cons_append]
  have hscan : scanQName (name ++ (sp ++ '=' :: (sp' ++ quote :: (w ++ rest)))) =
      .ok (name, sp ++ '=' :: (sp' ++ quote :: (w ++ rest))) :=
    scanQName_append hname (head_of_spaces hsp (fun d => isQNameChar_of_isSpace) (by decide))
  have heq : skipSpace (sp ++ '=' :: (sp' ++ quote :: (w ++ rest))) =
      '=' :: (sp' ++ quote :: (w ++ rest)) :=
    skipSpace_append hsp (by rintro d ⟨⟩; decide)
  have hopen : skipSpace (sp' ++ quote :: (w ++ rest)) = quote :: (w ++ rest) :=
    skipSpace_append hsp' (by rintro d ⟨⟩; exact isSpace_quote hquote)
  rw [htext, scanAttribute, hscan, ok_bind]
  dsimp only
  rw [heq, scanChar_cons, ok_bind]
  dsimp only
  rw [hopen, scanQuote_cons hquote, ok_bind]
  dsimp only
  rw [hv']
  rfl

lemma takes_of_scanAttribute {s rest : List Char} {a : RawAttribute}
    (h : scanAttribute s = .ok (a, rest)) :
    ∃ w, s = w ++ rest ∧ Takes scanAttribute RawAttribute.unplaced w a.unplaced := by
  obtain ⟨⟨name, r₁⟩, hname, htail⟩ := bind_eq_ok_iff.1 h
  obtain ⟨⟨u, r₂⟩, heq, htail⟩ := bind_eq_ok_iff.1 htail
  obtain ⟨⟨quote, r₃⟩, hquote, htail⟩ := bind_eq_ok_iff.1 htail
  obtain ⟨⟨v, r₄⟩, hvalue, hret⟩ := bind_eq_ok_iff.1 htail
  cases hret
  obtain ⟨hn, rfl⟩ := isQName_of_scanQName hname
  obtain ⟨w, rfl, hw⟩ := takes_of_scanValue hvalue
  obtain ⟨sp, hsp, rfl⟩ := exists_spaces_of_skipSpace (eq_of_scanChar heq)
  obtain ⟨hq, hquote⟩ := eq_of_scanQuote hquote
  obtain ⟨sp', hsp', rfl⟩ := exists_spaces_of_skipSpace hquote
  refine ⟨name ++ (sp ++ '=' :: (sp' ++ quote :: w)), ?_, takes_scanAttribute hn hsp hsp' hq hw⟩
  simp only [List.append_assoc, List.cons_append]

lemma scanTagEnd_append (e : Bool) (rest : List Char) :
    scanTagEnd (tagEnd e ++ rest) = .ok (e, rest) := by
  cases e <;> rfl

/-- Attributes without the places in them, and whether the tag is that of an empty element. -/
def unplacedAttributes (r : List RawAttribute × Bool) : List RawAttribute × Bool :=
  (r.1.map RawAttribute.unplaced, r.2)

lemma takes_scanAttributes_nil {sp : List Char} (e : Bool) (hsp : IsSpaces sp) :
    Takes scanAttributes unplacedAttributes (sp ++ tagEnd e) ([], e) := by
  intro rest
  refine ⟨([], e), ?_, rfl⟩
  obtain ⟨c, r, hend, hc⟩ : ∃ c r, tagEnd e ++ rest = c :: r ∧ (c = '>' ∨ c = '/') := by
    cases e with
    | false => exact ⟨'>', rest, rfl, Or.inl rfl⟩
    | true => exact ⟨'/', '>' :: rest, rfl, Or.inr rfl⟩
  have hskip : skipSpace (sp ++ (tagEnd e ++ rest)) = tagEnd e ++ rest := by
    rw [hend]
    refine skipSpace_append hsp ?_
    rintro d ⟨⟩
    rcases hc with rfl | rfl <;> decide
  obtain ⟨d, t, ht⟩ : ∃ d t, sp ++ (tagEnd e ++ rest) = d :: t := by
    refine List.exists_cons_of_ne_nil ?_
    rw [hend]
    exact List.append_ne_nil_of_right_ne_nil sp (List.cons_ne_nil c r)
  rw [ht] at hskip
  rw [List.append_assoc, ht, scanAttributes, if_pos]
  · rw [hskip, scanTagEnd_append]
    rfl
  · rw [hskip, hend, Bool.or_eq_true]
    right
    rcases hc with rfl | rfl <;> rfl

/-- Attributes go on behind the first one. -/
lemma scanAttributes_attribute {c : Char} {sp s rest : List Char} {a : RawAttribute}
    (hsp : IsSpaces (c :: sp)) (h : scanAttribute s = .ok (a, rest)) :
    scanAttributes (c :: (sp ++ s)) =
      (scanAttributes rest).map fun ((as, e), r) => ((a :: as, e), r) := by
  obtain ⟨⟨name, r₁⟩, hname, -⟩ := bind_eq_ok_iff.1 h
  obtain ⟨hn, hs⟩ := isQName_of_scanQName hname
  obtain ⟨d, t, rfl, hd, -⟩ := hn.isTagName
  have hskip : skipSpace (c :: (sp ++ s)) = s := by
    change skipSpace (c :: sp ++ s) = s
    refine skipSpace_append hsp ?_
    rw [hs]
    rintro e ⟨⟩
    exact Bool.eq_false_iff.2 fun hspace => ne_of_class hd (by
      rcases isSpace_iff.1 hspace with h | h | h | h <;> rw [h] <;> decide) rfl
  rw [scanAttributes, if_neg]
  · split
    · next heq => rw [hskip, h] at heq; cases heq
    · next heq =>
      rw [hskip, h] at heq
      cases heq
      rfl
  · -- neither bracket nor slash begins a name
    have hgt : d ≠ '>' := ne_of_class hd (by decide)
    have hslash : d ≠ '/' := ne_of_class hd (by decide)
    rw [hskip, hs, hsp c List.mem_cons_self]
    simp [hgt, hslash]

lemma takes_scanAttributes_cons {c : Char} {sp w w' : List Char} {a : RawAttribute}
    {as : List RawAttribute} {e : Bool} (hsp : IsSpaces (c :: sp))
    (hw : Takes scanAttribute RawAttribute.unplaced w a)
    (hw' : Takes scanAttributes unplacedAttributes w' (as, e)) :
    Takes scanAttributes unplacedAttributes (c :: (sp ++ (w ++ w'))) (a :: as, e) := by
  intro rest
  obtain ⟨a', ha', rfl⟩ := hw (w' ++ rest)
  obtain ⟨⟨as', e'⟩, has', hview⟩ := hw' rest
  cases hview
  refine ⟨(a' :: as', e'), ?_, rfl⟩
  rw [List.cons_append, List.append_assoc, List.append_assoc, scanAttributes_attribute hsp ha',
    has']
  rfl

lemma takes_of_scanAttributes {s rest : List Char} {r : List RawAttribute × Bool}
    (h : scanAttributes s = .ok (r, rest)) :
    ∃ w, s = w ++ rest ∧ Takes scanAttributes unplacedAttributes w (unplacedAttributes r) := by
  fun_induction scanAttributes s generalizing r rest with
  | case1 => cases h
  | case2 c tail =>
    obtain ⟨⟨e, r'⟩, hend, hret⟩ := map_eq_ok_iff.1 h
    cases hret
    obtain ⟨sp, hsp, hs⟩ := exists_spaces_of_skipSpace (eq_of_scanTagEnd hend)
    exact ⟨sp ++ tagEnd e, by rw [hs, List.append_assoc], takes_scanAttributes_nil e hsp⟩
  | case3 => cases h
  | case4 c tail =>
    rename_i hspace a r ha _ ih
    obtain ⟨⟨⟨as, e⟩, r'⟩, hmore, hret⟩ := map_eq_ok_iff.1 h
    cases hret
    obtain ⟨w', rfl, hw'⟩ := ih hmore
    obtain ⟨w, hs', hw⟩ := takes_of_scanAttribute ha
    -- in front of an attribute there is white space
    have hc : isSpace c = true := by
      simp only [Bool.or_eq_true, Bool.not_eq_true', not_or, Bool.not_eq_false] at hspace
      exact hspace.1
    change List.dropWhile isSpace (c :: tail) = _ at hs'
    rw [List.dropWhile_cons_of_pos hc] at hs'
    obtain ⟨sp, hsp, rfl⟩ := exists_spaces_of_skipSpace hs'
    have hcsp : IsSpaces (c :: sp) := List.forall_mem_cons.2 ⟨hc, hsp⟩
    refine ⟨c :: (sp ++ (w ++ w')), ?_, takes_scanAttributes_cons hcsp hw hw'⟩
    simp only [List.cons_append, List.append_assoc]

lemma takes_scanStartTag {name w : List Char} {as : List RawAttribute} {e : Bool}
    (hname : IsQName name) (hw : Takes scanAttributes unplacedAttributes w (as, e)) :
    Takes scanStartTag RawTag.unplaced (name ++ w) ⟨name, as, e⟩ := by
  intro rest
  obtain ⟨⟨as', e'⟩, has', hview⟩ := hw rest
  cases hview
  refine ⟨⟨name, as', e'⟩, ?_, rfl⟩
  have hhead : ∀ c ∈ (w ++ rest).head?, isQNameChar c = false := by
    obtain ⟨w', hw', heq⟩ := eq_of_scanAttributes has'
    rw [heq]
    cases w' with
    | nil => cases e' <;> rintro c ⟨⟩ <;> decide
    | cons d w' =>
      rintro c ⟨⟩
      exact isQNameChar_of_isSpace (hw'.starts d rfl)
  rw [List.append_assoc, scanStartTag, scanQName_append hname hhead, ok_bind]
  dsimp only
  rw [has']
  rfl

lemma takes_of_scanStartTag {s rest : List Char} {t : RawTag}
    (h : scanStartTag s = .ok (t, rest)) :
    ∃ w, s = t.name ++ (w ++ rest) ∧ IsQName t.name ∧
      Takes scanStartTag RawTag.unplaced (t.name ++ w) t.unplaced := by
  obtain ⟨⟨name, r₁⟩, hname, htail⟩ := bind_eq_ok_iff.1 h
  obtain ⟨⟨⟨as, e⟩, r₂⟩, has, hret⟩ := bind_eq_ok_iff.1 htail
  cases hret
  obtain ⟨hn, rfl⟩ := isQName_of_scanQName hname
  obtain ⟨w, rfl, hw⟩ := takes_of_scanAttributes has
  exact ⟨w, rfl, hn, takes_scanStartTag hn hw⟩

/-! ## Other markup -/

/-- Characters of a class and then those of a wider one are characters of the wider class. -/
lemma takeWhile_wider {α : Type} {p q : α → Bool} (h : ∀ a, p a = true → q a = true)
    (s : List α) : s.takeWhile p ++ (s.dropWhile p).takeWhile q = s.takeWhile q ∧
      (s.dropWhile p).dropWhile q = s.dropWhile q := by
  induction s with
  | nil => exact ⟨rfl, rfl⟩
  | cons a s ih =>
    by_cases ha : p a = true
    · simpa [ha, h a ha] using ih
    · simp [ha]

/-- An end tag may have white space behind its name. -/
lemma scanEndTag_append {name sp : List Char} (hname : IsTagName name) (hsp : IsSpaces sp)
    (rest : List Char) : scanEndTag (name ++ (sp ++ '>' :: rest)) = .ok (name, rest) := by
  obtain ⟨c, s, rfl, hc, hs⟩ := hname
  have hstop : (sp ++ '>' :: rest).takeWhile isQNameChar = [] ∧
      (sp ++ '>' :: rest).dropWhile isQNameChar = sp ++ '>' :: rest :=
    span_of_head (head_of_spaces hsp (fun d => isQNameChar_of_isSpace) (by decide))
  have hwider := takeWhile_wider (fun d => isQNameChar_of_isNameChar (c := d))
    (s ++ (sp ++ '>' :: rest))
  rw [List.takeWhile_append_of_pos hs, List.dropWhile_append_of_pos hs, hstop.1, hstop.2,
    List.append_nil] at hwider
  have hclose : skipSpace (sp ++ '>' :: rest) = '>' :: rest :=
    skipSpace_append hsp (by rintro d ⟨⟩; decide)
  rw [List.cons_append, scanEndTag, scanName, if_pos hc, ok_bind]
  change (scanChar '>' (skipSpace
    (((s ++ (sp ++ '>' :: rest)).dropWhile isNameChar).dropWhile isQNameChar)) >>= fun r =>
      pure (c :: (s ++ (sp ++ '>' :: rest)).takeWhile isNameChar ++
        ((s ++ (sp ++ '>' :: rest)).dropWhile isNameChar).takeWhile isQNameChar, r.2)) = _
  rw [hwider.2, hclose, scanChar_cons, ok_bind, List.cons_append, hwider.1]
  rfl

/-- A comment ends where it did. -/
lemma exists_of_scanComment {s rest : List Char} (h : scanComment s = .ok rest) :
    ∃ w, s = w ++ rest ∧ ∀ rest, scanComment (w ++ rest) = .ok rest := by
  induction s with
  | nil => cases h
  | cons c s ih =>
    unfold scanComment at h
    split at h
    · next hc =>
      obtain ⟨⟨u, r⟩, hr, rfl⟩ := map_eq_ok_iff.1 h
      obtain ⟨d, s, rfl⟩ := List.exists_cons_of_ne_nil (l := s) (by rintro rfl; cases hc.2)
      rw [List.tail_cons] at hr
      rw [List.head?_cons, Option.some.injEq] at hc
      rw [hc.1, hc.2, eq_of_scanChar hr]
      exact ⟨['-', '-', '>'], rfl, fun rest => rfl⟩
    · next hc =>
      split at h
      · next hxml =>
        obtain ⟨w, rfl, hw⟩ := ih h
        refine ⟨c :: w, rfl, fun rest' => ?_⟩
        have hc' : ¬(c = '-' ∧ (w ++ rest').head? = some '-') := by
          cases w with
          | nil => cases hw []
          | cons d w => exact hc
        rw [List.cons_append, scanComment, if_neg hc', if_pos hxml, hw]
      · cases h

lemma exists_of_scanInstructionBody {s rest : List Char} (h : scanInstructionBody s = .ok rest) :
    ∃ w, s = w ++ rest ∧ ∀ rest, scanInstructionBody (w ++ rest) = .ok rest := by
  induction s with
  | nil => cases h
  | cons c s ih =>
    unfold scanInstructionBody at h
    split at h
    · next hc =>
      cases h
      obtain ⟨d, s, rfl⟩ := List.exists_cons_of_ne_nil (l := s) (by rintro rfl; cases hc.2)
      rw [List.head?_cons, Option.some.injEq] at hc
      rw [hc.1, hc.2, List.tail_cons]
      exact ⟨['?', '>'], rfl, fun rest => rfl⟩
    · next hc =>
      split at h
      · next hxml =>
        obtain ⟨w, rfl, hw⟩ := ih h
        refine ⟨c :: w, rfl, fun rest' => ?_⟩
        have hc' : ¬(c = '?' ∧ (w ++ rest').head? = some '>') := by
          cases w with
          | nil => cases hw []
          | cons d w => exact hc
        rw [List.cons_append, scanInstructionBody, if_neg hc', if_pos hxml, hw]
      · cases h

lemma takes_of_scanInstruction {s rest : List Char} {b : Bool}
    (h : scanInstruction s = .ok (b, rest)) :
    ∃ w, s = w ++ rest ∧ Takes scanInstruction id w b := by
  obtain ⟨⟨target, r⟩, htarget, htail⟩ := bind_eq_ok_iff.1 h
  obtain ⟨hname, rfl⟩ := eq_of_scanName htarget
  dsimp only at htail
  split at htail
  · cases htail
  · next hxml =>
    have hhead : ∀ {c : Char} {r : List Char}, isNameChar c = false →
        scanName (target ++ c :: r) = .ok (target, c :: r) := by
      intro c r hc
      refine scanName_append hname ?_
      rintro d ⟨⟩
      exact hc
    split at htail
    · obtain ⟨⟨u, r'⟩, hr, hret⟩ := map_eq_ok_iff.1 htail
      cases hret
      rw [eq_of_scanChar hr]
      refine ⟨target ++ ['?', '>'], by simp, fun rest => ⟨_, ?_, rfl⟩⟩
      rw [List.append_assoc, List.cons_append, scanInstruction, hhead (by decide), ok_bind]
      dsimp only
      rw [if_neg hxml]
      rfl
    · next c body hmark =>
      split at htail
      · next hc =>
        obtain ⟨r', hr, hret⟩ := map_eq_ok_iff.1 htail
        cases hret
        obtain ⟨w, rfl, hw⟩ := exists_of_scanInstructionBody hr
        refine ⟨target ++ c :: w, by simp, fun rest => ⟨_, ?_, rfl⟩⟩
        have hnc : isNameChar c = false := isNameChar_of_isBlank (isBlank_of_isSpace hc)
        rw [List.append_assoc, List.cons_append, scanInstruction, hhead hnc, ok_bind]
        dsimp only
        rw [if_neg hxml]
        split
        · next heq => exact (hmark (List.cons.inj heq).1).elim
        · next heq =>
          obtain ⟨rfl, rfl⟩ := List.cons.inj heq
          rw [if_pos hc, hw]
          rfl
        · next heq => cases heq
      · cases htail
    · cases htail

lemma scanLiteral_append (cs s : List Char) : scanLiteral cs (cs ++ s) = .ok s := by
  induction cs with
  | nil => rfl
  | cons c cs ih =>
    rw [List.cons_append, scanLiteral, scanChar_cons]
    exact ih

/-- A character data section ends where it did, with three characters. -/
lemma takes_of_scanCdataBody {s t rest : List Char} (h : scanCdataBody s = .ok (t, rest)) :
    ∃ w, s = w ++ rest ∧ 2 < w.length ∧ Takes scanCdataBody id w t := by
  induction s generalizing t rest with
  | nil => cases h
  | cons c s ih =>
    unfold scanCdataBody at h
    split at h
    · next hc =>
      cases h
      obtain ⟨rest, rfl⟩ := List.isPrefixOf_iff_prefix.1 hc.2
      rw [hc.1]
      exact ⟨"]]>".toList, rfl, by decide, fun rest => ⟨[], rfl, rfl⟩⟩
    · next hend =>
      split at h
      · cases h
      · split at h
        · next hxml =>
          obtain ⟨⟨t', r⟩, hr, hret⟩ := map_eq_ok_iff.1 h
          cases hret
          obtain ⟨w, rfl, hlen, hw⟩ := ih hr
          refine ⟨c :: w, rfl, Nat.lt_succ_of_lt hlen, fun rest' => ⟨c :: t', ?_, rfl⟩⟩
          obtain ⟨t'', ht, rfl⟩ := hw rest'
          -- the two characters that are looked at belong to the section
          obtain ⟨x, y, z, v, rfl⟩ : ∃ x y z v, w = x :: y :: z :: v := by
            rcases w with _ | ⟨x, _ | ⟨y, _ | ⟨z, v⟩⟩⟩
            · exact absurd hlen (by decide)
            · exact absurd hlen (by simp)
            · exact absurd hlen (by simp)
            · exact ⟨x, y, z, v, rfl⟩
          have hend' : ¬(c = ']' ∧ "]>".toList.isPrefixOf (x :: y :: z :: v ++ rest') = true) :=
            hend
          rw [List.cons_append, scanCdataBody, if_neg hend', if_neg (by simp), if_pos hxml, ht]
          rfl
        · cases h

lemma takes_of_scanCdata {s t rest : List Char} (h : scanCdata s = .ok (t, rest)) :
    ∃ w, s = w ++ rest ∧ Takes scanCdata id w t := by
  unfold scanCdata at h
  split at h
  · cases h
  · obtain ⟨r, hr, hbody⟩ := bind_eq_ok_iff.1 h
    obtain ⟨w, rfl, -, hw⟩ := takes_of_scanCdataBody hbody
    refine ⟨"CDATA[".toList ++ w, by rw [eq_of_scanLiteral hr, List.append_assoc], ?_⟩
    intro rest'
    obtain ⟨t', ht, hview⟩ := hw rest'
    refine ⟨t', ?_, hview⟩
    have hlong : ¬(Utf8.encode (("CDATA[".toList ++ (w ++ rest')).take 6)).length < 6 := by
      change ¬(Utf8.encode "CDATA[".toList).length < 6
      decide
    rw [List.append_assoc, scanCdata, if_neg hlong, scanLiteral_append, ok_bind, ht]

/-! ## Tokens of markup -/

lemma takes_markup_reference {w : List Char} {r : Reference} (hw : Takes Reference.scan id w r) :
    Takes scanMarkup Markup.unplaced ('&' :: w) (.reference r) := by
  intro rest
  obtain ⟨r', hr', rfl⟩ := hw rest
  exact ⟨.reference r', by rw [List.cons_append, scanMarkup, hr']; rfl, rfl⟩

lemma scanBracket_of_isNameStart {c : Char} {s : List Char} (hc : isNameStart c = true) :
    scanBracket (c :: s) = (scanStartTag (c :: s)).map fun (t, rest) => (.startTag t, rest) := by
  have hbang : c ≠ '!' := ne_of_class hc (by decide)
  have hmark : c ≠ '?' := ne_of_class hc (by decide)
  have hslash : c ≠ '/' := ne_of_class hc (by decide)
  unfold scanBracket
  split
  · next heq => exact absurd (List.cons.inj heq).1 hbang
  · next heq => exact absurd (List.cons.inj heq).1 hmark
  · next heq => exact absurd (List.cons.inj heq).1 hslash
  · rfl

lemma takes_markup_startTag {name w : List Char} {t : RawTag} (hname : IsTagName name)
    (hw : Takes scanStartTag RawTag.unplaced (name ++ w) t) :
    Takes scanMarkup Markup.unplaced ('<' :: (name ++ w)) (.startTag t) := by
  intro rest
  obtain ⟨t', ht', rfl⟩ := hw rest
  obtain ⟨c, s, rfl, hc, -⟩ := hname
  refine ⟨.startTag t', ?_, rfl⟩
  rw [List.cons_append, scanMarkup]
  rw [List.cons_append, List.cons_append] at ht' ⊢
  rw [scanBracket_of_isNameStart hc, ht']
  rfl

lemma scanMarkup_endTag {name sp : List Char} (hname : IsTagName name) (hsp : IsSpaces sp)
    (rest : List Char) :
    scanMarkup ('<' :: '/' :: (name ++ (sp ++ '>' :: rest))) = .ok (.endTag name, rest) := by
  rw [scanMarkup, scanBracket, scanEndTag_append hname hsp]
  rfl

/-- Any token that begins with a bracket or an ampersand is read the same whatever follows. -/
theorem takes_of_scanMarkup {s rest : List Char} {c : Char} {m : Markup} (hc : c = '<' ∨ c = '&')
    (h : scanMarkup (c :: s) = .ok (m, rest)) :
    ∃ w, s = w ++ rest ∧ Takes scanMarkup Markup.unplaced (c :: w) m.unplaced := by
  rcases hc with rfl | rfl
  · rw [scanMarkup] at h
    unfold scanBracket at h
    split at h
    · unfold scanBang at h
      split at h
      · obtain ⟨⟨u, r⟩, hdash, htail⟩ := bind_eq_ok_iff.1 h
        obtain ⟨r', hr, hret⟩ := map_eq_ok_iff.1 htail
        cases hret
        obtain ⟨w, rfl, hw⟩ := exists_of_scanComment hr
        refine ⟨'!' :: '-' :: '-' :: w, by rw [eq_of_scanChar hdash]; rfl, fun rest => ?_⟩
        refine ⟨.aside, ?_, rfl⟩
        change Except.map _ (scanComment (w ++ rest)) = _
        rw [hw]
        rfl
      · obtain ⟨⟨t, r⟩, hr, hret⟩ := map_eq_ok_iff.1 h
        cases hret
        obtain ⟨w, rfl, hw⟩ := takes_of_scanCdata hr
        refine ⟨'!' :: '[' :: w, rfl, fun rest => ?_⟩
        obtain ⟨t', ht', rfl⟩ := hw rest
        refine ⟨.cdata t', ?_, rfl⟩
        change Except.map _ (scanCdata (w ++ rest)) = _
        rw [ht']
        rfl
      · cases h
    · obtain ⟨⟨b, r⟩, hr, hret⟩ := map_eq_ok_iff.1 h
      obtain ⟨w, rfl, hw⟩ := takes_of_scanInstruction hr
      cases hret
      refine ⟨'?' :: w, rfl, fun rest => ?_⟩
      obtain ⟨b', hb', rfl⟩ := hw rest
      refine ⟨if b' then .declaration else .aside, ?_, by cases b' <;> rfl⟩
      change Except.map _ (scanInstruction (w ++ rest)) = _
      rw [hb']
      rfl
    · obtain ⟨⟨name, r⟩, hr, hret⟩ := map_eq_ok_iff.1 h
      cases hret
      obtain ⟨hname, sp, hsp, rfl⟩ := eq_of_scanEndTag hr
      refine ⟨'/' :: (name ++ (sp ++ ['>'])), by simp, fun rest => ⟨.endTag name, ?_, rfl⟩⟩
      simpa using scanMarkup_endTag hname hsp rest
    · obtain ⟨⟨t, r⟩, hr, hret⟩ := map_eq_ok_iff.1 h
      cases hret
      obtain ⟨w, rfl, hname, hw⟩ := takes_of_scanStartTag hr
      exact ⟨t.name ++ w, by rw [List.append_assoc], takes_markup_startTag hname.isTagName hw⟩
  · obtain ⟨⟨r, r'⟩, hr, hret⟩ := map_eq_ok_iff.1 h
    obtain ⟨w, rfl, hw⟩ := takes_of_scanReference hr
    cases hret
    exact ⟨w, rfl, takes_markup_reference hw⟩

end Netconf.Xml
