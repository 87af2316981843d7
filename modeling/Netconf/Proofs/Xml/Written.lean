import Mathlib.Data.List.TakeWhile
import Mathlib.Tactic.Common
import Netconf.Text.Blank
import Netconf.Xml.Markup

/-!
# What scanners take

A scanner hands on the rest of a text. Here it is said what stood in front of the rest: the text
is put together again from what was read. A start tag holds no angle bracket but those around it
and those in attribute values, and an end tag holds none but those around it.
-/

namespace Netconf.Xml

open Netconf.Outcome Netconf.Text

/-! ## Classes of characters -/

lemma ne_of_class {p : Char → Bool} {c d : Char} (hc : p c = true) (hd : p d = false) : c ≠ d := by
  rintro rfl
  rw [hc] at hd
  cases hd

lemma isSpace_iff {c : Char} : isSpace c = true ↔ c = ' ' ∨ c = '\t' ∨ c = '\n' ∨ c = '\r' := by
  simp only [isSpace, Bool.or_eq_true, beq_iff_eq, or_assoc]

/-- XML's white space is blank. -/
lemma isBlank_of_isSpace {c : Char} (h : isSpace c = true) : isBlank c = true := by
  rcases isSpace_iff.1 h with rfl | rfl | rfl | rfl <;> rfl

/-- The numbers of the blank characters. -/
private def blankNumbers : List ℕ :=
  [0x09, 0x0A, 0x0B, 0x0C, 0x0D, 0x1C, 0x1D, 0x1E, 0x1F, 0x20, 0x85, 0xA0, 0x1680, 0x2000, 0x2001,
   0x2002, 0x2003, 0x2004, 0x2005, 0x2006, 0x2007, 0x2008, 0x2009, 0x200A, 0x2028, 0x2029, 0x202F,
   0x205F, 0x3000]

private lemma mem_blankNumbers {c : Char} (h : isBlank c = true) : c.toNat ∈ blankNumbers := by
  simp only [isBlank, Bool.or_eq_true, Bool.and_eq_true, decide_eq_true_eq, beq_iff_eq] at h
  simp only [blankNumbers, List.mem_cons, List.not_mem_nil, or_false]
  omega

/-- No blank stands in a name. -/
lemma isNameChar_of_isBlank [encoding : Encoding] {c : Char} (h : isBlank c = true) :
    isNameChar c = false := by
  -- there are few enough blanks to try each of them
  have hall : ∀ n ∈ blankNumbers, isNameChar (Char.ofNat n) = false := by
    obtain ⟨_ | _⟩ := encoding <;> decide +kernel
  rw [← Char.ofNat_toNat c]
  exact hall _ (mem_blankNumbers h)

/-! ## White space and given characters -/

/-- What stands behind a text adds nothing to what stands at its start, if it begins with another
character. -/
lemma isPrefix_append_iff {p v : List Char} (hv : ∀ c ∈ v.head?, c ∉ p) (s : List Char) :
    p <+: s ++ v ↔ p <+: s := by
  constructor
  · intro h
    induction p generalizing s with
    | nil => exact List.nil_prefix
    | cons c p ih =>
      cases s with
      | nil =>
        obtain ⟨r, hr⟩ := h
        have hc : v.head? = some c := by rw [← List.nil_append v, ← hr]; rfl
        exact absurd List.mem_cons_self (hv c hc)
      | cons d s =>
        obtain ⟨rfl, hmore⟩ := List.cons_prefix_cons.1 h
        rw [List.prefix_cons_inj]
        exact ih (fun e he hmem => hv e he (List.mem_cons_of_mem c hmem)) s hmore
  · intro h
    exact h.trans (List.prefix_append s v)

/-- Whether a text is white space only. -/
def IsSpaces (s : List Char) : Prop := ∀ c ∈ s, isSpace c = true

lemma isSpaces_nil : IsSpaces [] := fun _ hc => absurd hc List.not_mem_nil

/-- What is left out in front of a text is white space. -/
lemma exists_spaces_of_skipSpace {s t : List Char} (h : skipSpace s = t) :
    ∃ w, IsSpaces w ∧ s = w ++ t := by
  refine ⟨s.takeWhile isSpace, fun c hc => List.mem_takeWhile_imp hc, ?_⟩
  rw [← h, skipSpace, List.takeWhile_append_dropWhile]

lemma eq_of_scanChar {c : Char} {s rest : List Char} {u : Unit}
    (h : scanChar c s = .ok (u, rest)) : s = c :: rest := by
  unfold scanChar at h
  split at h
  · split at h
    · next hd =>
      cases h
      rw [hd]
    · cases h
  · cases h

/-! ## Texts without brackets -/

/-- No angle bracket stands in a text. -/
def IsBare (s : List Char) : Prop := '<' ∉ s ∧ '>' ∉ s

instance (s : List Char) : Decidable (IsBare s) := inferInstanceAs (Decidable (_ ∧ _))

lemma IsBare.append {s t : List Char} (hs : IsBare s) (ht : IsBare t) : IsBare (s ++ t) := by
  constructor
  · rw [List.mem_append]
    exact not_or.2 ⟨hs.1, ht.1⟩
  · rw [List.mem_append]
    exact not_or.2 ⟨hs.2, ht.2⟩

lemma isBare_of_class {p : Char → Bool} {s : List Char} (h : ∀ c ∈ s, p c = true)
    (hlt : p '<' = false) (hgt : p '>' = false) : IsBare s :=
  ⟨fun hmem => ne_of_class (h _ hmem) hlt rfl, fun hmem => ne_of_class (h _ hmem) hgt rfl⟩

lemma IsSpaces.isBare {s : List Char} (h : IsSpaces s) : IsBare s :=
  isBare_of_class h (by decide) (by decide)

lemma eq_of_scanNumber {base : ℕ} {p : Char → Bool} {s rest : List Char} {r : Reference}
    (hlt : p '<' = false) (hgt : p '>' = false)
    (h : Reference.scanNumber base p s = .ok (r, rest)) : ∃ w, IsBare w ∧ s = w ++ ';' :: rest := by
  unfold Reference.scanNumber at h
  dsimp only at h
  split at h
  · next hdigits hdrop =>
    simp only [Except.ok.injEq, Prod.mk.injEq] at h
    obtain ⟨-, rfl⟩ := h
    refine ⟨s.takeWhile p, isBare_of_class (fun _ => List.mem_takeWhile_imp) hlt hgt, ?_⟩
    rw [← hdrop, List.takeWhile_append_dropWhile]
  · cases h

/-! ## Parts of start tags -/

lemma eq_of_scanQuote {s rest : List Char} {quote : Char} (h : scanQuote s = .ok (quote, rest)) :
    (quote = '\x22' ∨ quote = '\x27') ∧ s = quote :: rest := by
  unfold scanQuote at h
  split at h
  · cases h
  · split at h
    · next hc =>
      cases h
      exact ⟨hc, rfl⟩
    · cases h

/-- How a start tag ends, that of an empty element with a slash. -/
def tagEnd (isEmpty : Bool) : List Char := if isEmpty then "/>".toList else ">".toList

lemma eq_of_scanTagEnd {s rest : List Char} {e : Bool} (h : scanTagEnd s = .ok (e, rest)) :
    s = tagEnd e ++ rest := by
  -- a slash is only read together with the bracket behind it
  unfold scanTagEnd at h
  split at h
  · cases h
  · cases h
    rfl
  · obtain ⟨⟨u, r⟩, hr, hret⟩ := map_eq_ok_iff.1 h
    simp only [Prod.mk.injEq] at hret
    obtain ⟨rfl, rfl⟩ := hret
    rw [eq_of_scanChar hr]
    rfl
  · cases h

/-- What stands between the name of a start tag and its end: attributes with white space in front
of each. -/
structure IsAttributeText (attributes : List RawAttribute) (w : List Char) : Prop where
  noOpening : '<' ∉ w
  /-- A closing bracket can only stand in a value. -/
  closing : '>' ∈ w → ∃ a ∈ attributes, ValuePart.char '>' ∈ a.value
  starts : ∀ c ∈ w.head?, isSpace c = true
  ends : w.getLast? ≠ some '/'

lemma isAttributeText_of_isSpaces {w : List Char} (h : IsSpaces w) : IsAttributeText [] w where
  noOpening := h.isBare.1
  closing := fun hgt => absurd hgt h.isBare.2
  starts := fun c hc => h c (List.mem_of_mem_head? hc)
  ends := fun hlast => ne_of_class (h _ (List.mem_of_getLast? hlast)) (by decide) rfl

lemma IsAttributeText.cons {a : RawAttribute} {as : List RawAttribute} {sp w w' : List Char}
    {c quote : Char} (hsp : IsSpaces (c :: sp)) (hquote : quote = '\x22' ∨ quote = '\x27')
    (hopen : '<' ∉ w) (hclose : '>' ∈ w → .char '>' ∈ a.value) (h : IsAttributeText as w') :
    IsAttributeText (a :: as) (c :: sp ++ (w ++ quote :: w')) where
  noOpening := by
    have hq : '<' ≠ quote := by rcases hquote with rfl | rfl <;> decide
    simp only [List.mem_append, List.mem_cons, not_or]
    exact ⟨not_or.1 (List.mem_cons.not.1 hsp.isBare.1), hopen, hq, h.noOpening⟩
  closing := by
    have hq : '>' ≠ quote := by rcases hquote with rfl | rfl <;> decide
    intro hgt
    simp only [List.mem_append, hsp.isBare.2, List.mem_cons, hq, false_or] at hgt
    rcases hgt with hgt | hgt
    · exact ⟨a, List.mem_cons_self, hclose hgt⟩
    · obtain ⟨b, hb, hvalue⟩ := h.closing hgt
      exact ⟨b, List.mem_cons_of_mem a hb, hvalue⟩
  starts := by
    intro d hd
    rw [List.cons_append, List.head?_cons, Option.mem_some] at hd
    exact hd ▸ hsp c List.mem_cons_self
  ends := by
    have hq : quote ≠ '/' := by rcases hquote with rfl | rfl <;> decide
    rw [← List.append_assoc, List.getLast?_append]
    -- the last character is a quote, if no attribute follows
    cases hw : w'.getLast? with
    | none =>
      rw [List.getLast?_eq_none_iff.1 hw]
      simpa using hq
    | some d =>
      rw [List.getLast?_cons, hw]
      simpa [hw] using h.ends

/-! ## Markup without names -/

/-- A comment ends with two hyphens and a bracket. -/
lemma eq_of_scanComment {s rest : List Char} (h : scanComment s = .ok rest) :
    ∃ w, s = w ++ '-' :: '-' :: '>' :: rest := by
  induction s with
  | nil => cases h
  | cons c s ih =>
    unfold scanComment at h
    split at h
    · next hc =>
      obtain ⟨⟨u, r⟩, hr, rfl⟩ := map_eq_ok_iff.1 h
      obtain ⟨d, s, rfl⟩ := List.exists_cons_of_ne_nil (l := s) (by rintro rfl; cases hc.2)
      rw [List.tail_cons] at hr
      rw [List.head?_cons, Option.some.injEq] at hc
      rw [hc.1, hc.2, eq_of_scanChar hr]
      exact ⟨[], rfl⟩
    · split at h
      · obtain ⟨w, rfl⟩ := ih h
        exact ⟨c :: w, rfl⟩
      · cases h

lemma eq_of_scanInstructionBody {s rest : List Char} (h : scanInstructionBody s = .ok rest) :
    ∃ w, s = w ++ '?' :: '>' :: rest := by
  induction s with
  | nil => cases h
  | cons c s ih =>
    unfold scanInstructionBody at h
    split at h
    · next hc =>
      cases h
      obtain ⟨d, s, rfl⟩ := List.exists_cons_of_ne_nil (l := s) (by rintro rfl; cases hc.2)
      rw [List.head?_cons, Option.some.injEq] at hc
      rw [hc.1, hc.2, List.tail_cons]
      exact ⟨[], rfl⟩
    · split at h
      · obtain ⟨w, rfl⟩ := ih h
        exact ⟨c :: w, rfl⟩
      · cases h

lemma eq_of_scanLiteral {cs s rest : List Char} (h : scanLiteral cs s = .ok rest) :
    s = cs ++ rest := by
  induction cs generalizing s with
  | nil =>
    cases h
    rfl
  | cons c cs ih =>
    obtain ⟨⟨u, r⟩, hr, htail⟩ := bind_eq_ok_iff.1 h
    rw [eq_of_scanChar hr, ih htail]
    rfl

lemma suffix_of_scanCdataBody {s t rest : List Char} (h : scanCdataBody s = .ok (t, rest)) :
    rest <:+ s := by
  induction s generalizing t rest with
  | nil => cases h
  | cons c s ih =>
    unfold scanCdataBody at h
    split at h
    · cases h
      exact (List.drop_suffix 2 s).trans (List.suffix_cons c s)
    · split at h
      · cases h
      · split at h
        · obtain ⟨⟨t', r⟩, hr, hret⟩ := map_eq_ok_iff.1 h
          simp only [Prod.mk.injEq] at hret
          obtain ⟨-, rfl⟩ := hret
          exact (ih hr).trans (List.suffix_cons c s)
        · cases h

lemma suffix_of_scanCdata {s t rest : List Char} (h : scanCdata s = .ok (t, rest)) :
    rest <:+ s := by
  unfold scanCdata at h
  split at h
  · cases h
  · obtain ⟨r, hr, htail⟩ := bind_eq_ok_iff.1 h
    rw [eq_of_scanLiteral hr]
    exact (suffix_of_scanCdataBody htail).trans (List.suffix_append _ r)

variable [Encoding]

/-! ## Names -/

/-- Whether a text is a name without a colon. -/
def IsName (n : List Char) : Prop :=
  ∃ c s, n = c :: s ∧ isNameStart c = true ∧ ∀ d ∈ s, isNameChar d = true

instance (n : List Char) : Decidable (IsName n) :=
  match n with
  | [] => isFalse fun ⟨_, _, h, _⟩ => List.cons_ne_nil _ _ h.symm
  | c :: s => decidable_of_iff (isNameStart c = true ∧ s.all isNameChar = true)
      ⟨fun h => ⟨c, s, rfl, h.1, List.all_eq_true.1 h.2⟩, fun ⟨_, _, h, hc, hs⟩ => by
        obtain ⟨rfl, rfl⟩ := List.cons.inj h
        exact ⟨hc, List.all_eq_true.2 hs⟩⟩

lemma IsName.isNameChar {n : List Char} (h : IsName n) : ∀ c ∈ n, isNameChar c = true := by
  obtain ⟨c, s, rfl, hc, hs⟩ := h
  intro d hd
  rcases List.mem_cons.1 hd with rfl | hd
  · exact isNameChar_of_isNameStart hc
  · exact hs d hd

/-- A name that is one where only ASCII is looked up is one in any encoding. -/
lemma IsName.of_narrow {n : List Char} (h : @IsName .narrow n) : IsName n := by
  obtain ⟨c, s, rfl, hc, hs⟩ := h
  exact ⟨c, s, rfl, isNameStart_of_narrow hc, fun d hd => isNameChar_of_narrow (hs d hd)⟩

/-- The characters of names in tags. -/
def isQNameChar (c : Char) : Bool := isNameChar c || c == ':'

lemma isQNameChar_of_isNameChar {c : Char} (h : isNameChar c = true) : isQNameChar c = true := by
  rw [isQNameChar, h, Bool.true_or]

/-- Whether a text begins like a name and goes on with characters of names and colons. -/
def IsTagName (n : List Char) : Prop :=
  ∃ c s, n = c :: s ∧ isNameStart c = true ∧ ∀ d ∈ s, isQNameChar d = true

lemma IsTagName.isQNameChar {n : List Char} (h : IsTagName n) : ∀ c ∈ n, isQNameChar c = true := by
  obtain ⟨c, s, rfl, hc, hs⟩ := h
  intro d hd
  rcases List.mem_cons.1 hd with rfl | hd
  · exact isQNameChar_of_isNameChar (isNameChar_of_isNameStart hc)
  · exact hs d hd

lemma IsTagName.ne_nil {n : List Char} (h : IsTagName n) : n ≠ [] := by
  obtain ⟨c, s, rfl, -⟩ := h
  exact List.cons_ne_nil c s

/-- A name with something behind it that may stand in a name. -/
lemma IsName.isTagName {n s : List Char} (h : IsName n) (hs : ∀ c ∈ s, Xml.isQNameChar c = true) :
    IsTagName (n ++ s) := by
  obtain ⟨c, t, rfl, hc, ht⟩ := h
  refine ⟨c, t ++ s, rfl, hc, ?_⟩
  intro d hd
  rcases List.mem_append.1 hd with hd | hd
  · exact isQNameChar_of_isNameChar (ht d hd)
  · exact hs d hd

lemma eq_of_scanName {s name rest : List Char} (h : scanName s = .ok (name, rest)) :
    IsName name ∧ s = name ++ rest := by
  unfold scanName at h
  split at h
  · cases h
  · next c s =>
    split at h
    · next hc =>
      simp only [Except.ok.injEq, Prod.mk.injEq] at h
      obtain ⟨rfl, rfl⟩ := h
      refine ⟨⟨c, _, rfl, hc, fun d hd => List.mem_takeWhile_imp hd⟩, ?_⟩
      rw [List.cons_append, List.takeWhile_append_dropWhile]
    · cases h

/-- Whether a text is a name, or two names with a colon between them. -/
def IsQName (n : List Char) : Prop :=
  IsName n ∨ ∃ q b, IsName q ∧ IsName b ∧ n = q ++ ':' :: b

lemma IsQName.isTagName {n : List Char} (h : IsQName n) : IsTagName n := by
  rcases h with hn | ⟨q, b, hq, hb, rfl⟩
  · have := hn.isTagName (s := []) fun c hc => absurd hc List.not_mem_nil
    rwa [List.append_nil] at this
  · refine hq.isTagName ?_
    intro c hc
    rcases List.mem_cons.1 hc with rfl | hc
    · rfl
    · exact isQNameChar_of_isNameChar (hb.isNameChar c hc)

lemma IsQName.of_narrow {n : List Char} (h : @IsQName .narrow n) : IsQName n := by
  rcases h with hn | ⟨q, b, hq, hb, rfl⟩
  · exact Or.inl hn.of_narrow
  · exact Or.inr ⟨q, b, hq.of_narrow, hb.of_narrow, rfl⟩

lemma isQName_of_scanQName {s name rest : List Char} (h : scanQName s = .ok (name, rest)) :
    IsQName name ∧ s = name ++ rest := by
  obtain ⟨⟨q, r⟩, hq, hrest⟩ := bind_eq_ok_iff.1 h
  obtain ⟨hname, rfl⟩ := eq_of_scanName hq
  dsimp only at hrest
  -- behind a colon a second name follows
  split at hrest
  · next r =>
    obtain ⟨⟨b, r'⟩, hb, hret⟩ := bind_eq_ok_iff.1 hrest
    obtain ⟨hbase, rfl⟩ := eq_of_scanName hb
    simp only [pure, Except.pure, Except.ok.injEq, Prod.mk.injEq] at hret
    obtain ⟨rfl, rfl⟩ := hret
    exact ⟨Or.inr ⟨q, b, hname, hbase, rfl⟩, by rw [List.append_assoc, List.cons_append]⟩
  · simp only [pure, Except.pure, Except.ok.injEq, Prod.mk.injEq] at hrest
    obtain ⟨rfl, rfl⟩ := hrest
    exact ⟨Or.inl hname, rfl⟩

lemma eq_of_scanQName {s name rest : List Char} (h : scanQName s = .ok (name, rest)) :
    IsTagName name ∧ s = name ++ rest :=
  ⟨(isQName_of_scanQName h).1.isTagName, (isQName_of_scanQName h).2⟩

/-! ## References and values -/

lemma IsName.isBare {n : List Char} (h : IsName n) : IsBare n :=
  isBare_of_class h.isNameChar rfl rfl

lemma IsTagName.isBare {n : List Char} (h : IsTagName n) : IsBare n :=
  isBare_of_class h.isQNameChar rfl rfl

/-- A reference holds no angle bracket and ends with a semicolon. -/
lemma eq_of_scanReference {s rest : List Char} {r : Reference}
    (h : Reference.scan s = .ok (r, rest)) : ∃ w, IsBare w ∧ s = w ++ ';' :: rest := by
  unfold Reference.scan at h
  split at h
  · obtain ⟨w, hw, rfl⟩ := eq_of_scanNumber (by decide) (by decide) h
    exact ⟨'#' :: 'x' :: w, IsBare.append (s := ['#', 'x']) (by decide) hw, rfl⟩
  · obtain ⟨w, hw, rfl⟩ := eq_of_scanNumber (by decide) (by decide) h
    exact ⟨'#' :: w, IsBare.append (s := ['#']) (by decide) hw, rfl⟩
  · obtain ⟨⟨name, r₁⟩, hname, hrest⟩ := bind_eq_ok_iff.1 h
    obtain ⟨⟨u, r₂⟩, hsemi, hret⟩ := bind_eq_ok_iff.1 hrest
    obtain ⟨hn, rfl⟩ := eq_of_scanName hname
    have hr₁ := eq_of_scanChar hsemi
    simp only [pure, Except.pure, Except.ok.injEq, Prod.mk.injEq] at hret
    obtain ⟨-, rfl⟩ := hret
    exact ⟨name, hn.isBare, by rw [hr₁]⟩

/-- What a part of a value is written as: nothing but a written `>` holds an angle bracket. -/
lemma eq_of_scanValuePart {s rest : List Char} {p : ValuePart}
    (h : scanValuePart s = .ok (p, rest)) :
    ∃ w, s = w ++ rest ∧ '<' ∉ w ∧ ('>' ∈ w → p = .char '>') := by
  unfold scanValuePart at h
  split at h
  · cases h
  · next s =>
    obtain ⟨⟨r, r'⟩, hr, hret⟩ := bind_eq_ok_iff.1 h
    obtain ⟨w, hw, rfl⟩ := eq_of_scanReference hr
    simp only [pure, Except.pure, Except.ok.injEq, Prod.mk.injEq] at hret
    obtain ⟨-, rfl⟩ := hret
    have hbare : IsBare ('&' :: w ++ [';']) :=
      (IsBare.append (s := ['&']) (by decide) hw).append (by decide)
    refine ⟨'&' :: w ++ [';'], ?_, hbare.1, fun hgt => absurd hgt hbare.2⟩
    rw [List.append_assoc, List.singleton_append, List.cons_append]
  · next c s _ =>
    split at h
    · next hc =>
      simp only [Except.ok.injEq, Prod.mk.injEq] at h
      obtain ⟨rfl, rfl⟩ := h
      refine ⟨[c], rfl, ?_, ?_⟩
      · rw [List.mem_singleton]
        intro heq
        exact hc.1 heq.symm
      · rw [List.mem_singleton]
        intro heq
        exact heq ▸ rfl
    · cases h

lemma eq_of_scanValue {quote : Char} {s rest : List Char} {v : List ValuePart}
    (h : scanValue quote s = .ok (v, rest)) :
    ∃ w, s = w ++ quote :: rest ∧ '<' ∉ w ∧ ('>' ∈ w → .char '>' ∈ v) := by
  fun_induction scanValue quote s generalizing v rest with
  | case1 => cases h
  | case2 tail =>
    cases h
    exact ⟨[], rfl, List.not_mem_nil, fun hgt => absurd hgt List.not_mem_nil⟩
  | case3 => cases h
  | case4 c tail _ p r hp hlt ih =>
    obtain ⟨⟨ps, r'⟩, hrest, hret⟩ := map_eq_ok_iff.1 h
    simp only [Prod.mk.injEq] at hret
    obtain ⟨rfl, rfl⟩ := hret
    obtain ⟨w, hw, hopen, hclose⟩ := eq_of_scanValuePart hp
    obtain ⟨w', hw', hopen', hclose'⟩ := ih hrest
    refine ⟨w ++ w', ?_, ?_, ?_⟩
    · rw [hw, hw', List.append_assoc]
    · rw [List.mem_append]
      exact not_or.2 ⟨hopen, hopen'⟩
    · rw [List.mem_append, List.mem_cons]
      exact Or.imp (fun hgt => (hclose hgt).symm) hclose'

/-! ## Start tags -/

/-- What an attribute is written as. It ends with a quote. -/
lemma eq_of_scanAttribute {s rest : List Char} {a : RawAttribute}
    (h : scanAttribute s = .ok (a, rest)) :
    ∃ w quote, s = w ++ quote :: rest ∧ (quote = '\x22' ∨ quote = '\x27') ∧ '<' ∉ w ∧
      ('>' ∈ w → .char '>' ∈ a.value) := by
  obtain ⟨⟨name, r₁⟩, hname, htail⟩ := bind_eq_ok_iff.1 h
  obtain ⟨⟨u, r₂⟩, heq, htail⟩ := bind_eq_ok_iff.1 htail
  obtain ⟨⟨quote, r₃⟩, hquote, htail⟩ := bind_eq_ok_iff.1 htail
  obtain ⟨⟨v, r₄⟩, hvalue, hret⟩ := bind_eq_ok_iff.1 htail
  simp only [pure, Except.pure, Except.ok.injEq, Prod.mk.injEq] at hret
  obtain ⟨rfl, rfl⟩ := hret
  obtain ⟨hn, rfl⟩ := eq_of_scanQName hname
  obtain ⟨w, hw, hopen, hclose⟩ := eq_of_scanValue hvalue
  obtain ⟨sp₁, hsp₁, rfl⟩ := exists_spaces_of_skipSpace (eq_of_scanChar heq)
  obtain ⟨hq, hquote⟩ := eq_of_scanQuote hquote
  obtain ⟨sp₂, hsp₂, rfl⟩ := exists_spaces_of_skipSpace hquote
  -- a bracket can only stand in the value
  have hbare : IsBare (name ++ sp₁ ++ '=' :: sp₂ ++ [quote]) := by
    refine ((hn.isBare.append hsp₁.isBare).append ?_).append ?_
    · exact IsBare.append (s := ['=']) (by decide) hsp₂.isBare
    · rcases hq with rfl | rfl <;> decide
  refine ⟨name ++ sp₁ ++ '=' :: sp₂ ++ [quote] ++ w, quote, ?_, hq, ?_, ?_⟩
  · rw [hw]
    simp only [List.append_assoc, List.cons_append, List.nil_append]
  · rw [List.mem_append]
    exact not_or.2 ⟨hbare.1, hopen⟩
  · rw [List.mem_append]
    intro hgt
    exact hclose (hgt.resolve_left hbare.2)

/-- The attributes of a start tag are put together again from their written form. -/
lemma eq_of_scanAttributes {s rest : List Char} {as : List RawAttribute} {e : Bool}
    (h : scanAttributes s = .ok ((as, e), rest)) :
    ∃ w, IsAttributeText as w ∧ s = w ++ (tagEnd e ++ rest) := by
  fun_induction scanAttributes s generalizing as e rest with
  | case1 => cases h
  | case2 c tail =>
    obtain ⟨⟨e', r⟩, hend, hret⟩ := map_eq_ok_iff.1 h
    simp only [Prod.mk.injEq] at hret
    obtain ⟨⟨rfl, rfl⟩, rfl⟩ := hret
    obtain ⟨sp, hsp, hs⟩ := exists_spaces_of_skipSpace (eq_of_scanTagEnd hend)
    exact ⟨sp, isAttributeText_of_isSpaces hsp, hs⟩
  | case3 => cases h
  | case4 c tail =>
    rename_i hspace a r ha _ ih
    obtain ⟨⟨⟨as', e'⟩, r'⟩, hmore, hret⟩ := map_eq_ok_iff.1 h
    simp only [Prod.mk.injEq] at hret
    obtain ⟨⟨rfl, rfl⟩, rfl⟩ := hret
    obtain ⟨w', hw', hr⟩ := ih hmore
    obtain ⟨w, quote, hs', hquote, hopen, hclose⟩ := eq_of_scanAttribute ha
    -- in front of an attribute there is white space
    have hc : isSpace c = true := by
      simp only [Bool.or_eq_true, Bool.not_eq_true', not_or, Bool.not_eq_false] at hspace
      exact hspace.1
    change List.dropWhile isSpace (c :: tail) = _ at hs'
    rw [List.dropWhile_cons_of_pos hc] at hs'
    obtain ⟨sp, hsp, rfl⟩ := exists_spaces_of_skipSpace hs'
    have hcsp : IsSpaces (c :: sp) := by
      intro d hd
      rcases List.mem_cons.1 hd with rfl | hd
      · exact hc
      · exact hsp d hd
    refine ⟨_, hw'.cons hcsp hquote hopen hclose, ?_⟩
    rw [hr]
    simp only [List.cons_append, List.append_assoc]

/-- A start tag is put together again from its name and its attributes. -/
lemma eq_of_scanStartTag {s rest : List Char} {t : RawTag} (h : scanStartTag s = .ok (t, rest)) :
    IsTagName t.name ∧ ∃ w, IsAttributeText t.attributes w ∧
      s = t.name ++ (w ++ (tagEnd t.isEmpty ++ rest)) := by
  obtain ⟨⟨name, r₁⟩, hname, htail⟩ := bind_eq_ok_iff.1 h
  obtain ⟨⟨⟨as, e⟩, r₂⟩, has, hret⟩ := bind_eq_ok_iff.1 htail
  simp only [pure, Except.pure, Except.ok.injEq, Prod.mk.injEq] at hret
  obtain ⟨rfl, rfl⟩ := hret
  obtain ⟨hn, rfl⟩ := eq_of_scanQName hname
  obtain ⟨w, hw, rfl⟩ := eq_of_scanAttributes has
  exact ⟨hn, w, hw, rfl⟩

/-! ## Other markup -/

lemma eq_of_scanEndTag {s name rest : List Char} (h : scanEndTag s = .ok (name, rest)) :
    IsTagName name ∧ ∃ w, IsSpaces w ∧ s = name ++ (w ++ '>' :: rest) := by
  obtain ⟨⟨n, r₁⟩, hn, htail⟩ := bind_eq_ok_iff.1 h
  obtain ⟨⟨u, r₂⟩, hclose, hret⟩ := bind_eq_ok_iff.1 htail
  simp only [pure, Except.pure, Except.ok.injEq, Prod.mk.injEq] at hret
  obtain ⟨rfl, rfl⟩ := hret
  obtain ⟨hname, rfl⟩ := eq_of_scanName hn
  obtain ⟨w, hw, hdrop⟩ := exists_spaces_of_skipSpace (eq_of_scanChar hclose)
  refine ⟨hname.isTagName fun c hc => List.mem_takeWhile_imp hc, w, hw, ?_⟩
  rw [List.append_assoc, ← hdrop, List.takeWhile_append_dropWhile]

/-- An instruction is its target, then at once the end or white space and anything up to the
end. -/
lemma eq_of_scanInstruction {s rest : List Char} {b : Bool}
    (h : scanInstruction s = .ok (b, rest)) :
    ∃ target r, IsName target ∧ s = target ++ r ∧ b = (target == "xml".toList) ∧
      (r = '?' :: '>' :: rest ∨
        ∃ c body, isSpace c = true ∧ r = c :: body ∧ scanInstructionBody body = .ok rest) := by
  obtain ⟨⟨target, r⟩, htarget, htail⟩ := bind_eq_ok_iff.1 h
  obtain ⟨hname, rfl⟩ := eq_of_scanName htarget
  refine ⟨target, r, hname, rfl, ?_⟩
  dsimp only at htail
  split at htail
  · cases htail
  · split at htail
    · obtain ⟨⟨u, r'⟩, hr, hret⟩ := map_eq_ok_iff.1 htail
      simp only [Prod.mk.injEq] at hret
      obtain ⟨rfl, rfl⟩ := hret
      rw [eq_of_scanChar hr]
      exact ⟨rfl, Or.inl rfl⟩
    · next c body _ =>
      split at htail
      · next hc =>
        obtain ⟨r', hr, hret⟩ := map_eq_ok_iff.1 htail
        simp only [Prod.mk.injEq] at hret
        obtain ⟨rfl, rfl⟩ := hret
        exact ⟨rfl, Or.inr ⟨c, body, hc, rfl, hr⟩⟩
      · cases htail
    · cases htail

lemma exists_append_of_scanInstruction {s rest : List Char} {b : Bool}
    (h : scanInstruction s = .ok (b, rest)) : ∃ w, s = w ++ '?' :: '>' :: rest := by
  obtain ⟨target, r, -, rfl, -, rfl | ⟨c, body, -, rfl, hbody⟩⟩ := eq_of_scanInstruction h
  · exact ⟨target, rfl⟩
  · obtain ⟨w, rfl⟩ := eq_of_scanInstructionBody hbody
    exact ⟨target ++ c :: w, by rw [List.append_assoc, List.cons_append]⟩

end Netconf.Xml
