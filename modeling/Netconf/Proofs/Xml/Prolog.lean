import Netconf.Proofs.Xml.Lexemes
import Netconf.Xml.Document

/-!
# In front of the root element and behind it

What may stand in front of the root element is an XML declaration and then white space, comments,
instructions and a document type declaration (`isProlog_of_readProlog`). Behind the root element
there is the same without declarations. What a document type declaration consists of does not
matter here, only that it goes on to a closing bracket of its own.
-/

namespace Netconf.Xml

open Netconf.Outcome

/-! ## Lexemes that are taken -/

lemma Behind.suffix {α : Type} {a b : List α} (h : Behind a b) : a <:+ b := by
  induction h with
  | here t => exact List.suffix_cons t a
  | further t _ ih => exact ih.trans (List.suffix_cons t _)

lemma eq_of_take {α : Type} {p : PrologToken → Option α} {ts : List PrologToken}
    {parsed : Parsed ts α} (h : take p ts = .ok parsed) :
    ∃ t, ts = t :: parsed.rest ∧ p t = some parsed.value := by
  unfold take at h
  split at h
  · cases h
  · next t ts =>
    split at h
    · next a ha =>
      cases h
      exact ⟨t, rfl, ha⟩
    · cases h

/-- Whether the lexemes that are taken in front of the others end with a closing bracket. -/
def EndsDeclaration (rest ts : List PrologToken) : Prop :=
  ∃ taken c, ts = taken ++ c :: rest ∧ c.lexeme = .closeDeclaration

lemma endsDeclaration_of_takeClose {ts : List PrologToken} {parsed : Parsed ts Unit}
    (h : takeClose ts = .ok parsed) : EndsDeclaration parsed.rest ts := by
  obtain ⟨c, hts, hc⟩ := eq_of_take h
  refine ⟨[], c, hts, ?_⟩
  unfold PrologToken.is at hc
  split at hc
  · assumption
  · cases hc

lemma EndsDeclaration.behind {rest ts ts' : List PrologToken} (h : EndsDeclaration rest ts)
    (hbehind : Behind ts ts') : EndsDeclaration rest ts' := by
  obtain ⟨taken, c, rfl, hc⟩ := h
  obtain ⟨before, rfl⟩ := hbehind.suffix
  exact ⟨before ++ taken, c, by rw [List.append_assoc], hc⟩

/-- The lexemes that are not white space. -/
def withoutSpace (ts : List PrologToken) : List PrologToken :=
  ts.filter fun t => t.lexeme != .space

lemma withoutSpace_cons {l : Lexeme} {place rest : List Char} {ts : List PrologToken}
    (h : l ≠ .space) :
    withoutSpace (⟨l, place, rest⟩ :: ts) = ⟨l, place, rest⟩ :: withoutSpace ts :=
  List.filter_cons_of_pos (bne_iff_ne.2 h)

variable [Encoding]

/-! ## Document type declarations -/

lemma endsDeclaration_of_takeDoctypeEnd {d : Dtd} {ts : List PrologToken} {parsed : Parsed ts Dtd}
    (h : takeDoctypeEnd d ts = .ok parsed) : EndsDeclaration parsed.rest ts := by
  unfold takeDoctypeEnd at h
  split at h
  · obtain ⟨⟨_, ts₁, h₁⟩, -, htail⟩ := bind_eq_ok_iff.1 h
    obtain ⟨⟨d', ts₂, h₂⟩, -, htail⟩ := bind_eq_ok_iff.1 htail
    obtain ⟨⟨_, ts₃, h₃⟩, hclose, hret⟩ := bind_eq_ok_iff.1 htail
    cases hret
    exact (endsDeclaration_of_takeClose hclose).behind (h₂.trans h₁)
  · obtain ⟨⟨_, ts₁, h₁⟩, hclose, hret⟩ := bind_eq_ok_iff.1 h
    cases hret
    exact endsDeclaration_of_takeClose hclose

/-- A document type declaration ends with a closing bracket. -/
lemma endsDeclaration_of_takeDoctype {d : Dtd} {ts : List PrologToken} {parsed : Parsed ts Dtd}
    (h : takeDoctype d ts = .ok parsed) : EndsDeclaration parsed.rest ts := by
  obtain ⟨⟨_, ts₁, h₁⟩, -, htail⟩ := bind_eq_ok_iff.1 h
  dsimp only at htail
  split at htail
  · obtain ⟨⟨d', ts₂, h₂⟩, hend, hret⟩ := bind_eq_ok_iff.1 htail
    cases hret
    exact (endsDeclaration_of_takeDoctypeEnd hend).behind h₁
  · obtain ⟨⟨_, ts₂, h₂⟩, -, htail⟩ := bind_eq_ok_iff.1 htail
    obtain ⟨⟨d', ts₃, h₃⟩, hend, hret⟩ := bind_eq_ok_iff.1 htail
    cases hret
    exact (endsDeclaration_of_takeDoctypeEnd hend).behind (h₂.trans h₁)

/-- The document type declaration among the lexemes in front of a root element, as it is written
up to its closing bracket. -/
def doctypeText? (d : Dtd) : List PrologToken → Option (List Char)
  | [] => none
  | t :: ts =>
    match t.lexeme with
    | .openDeclaration _ =>
      match takeDoctype d ts with
      | .ok parsed =>
        (ts.take (ts.length - parsed.rest.length)).getLast?.map fun c =>
          t.place.take (t.place.length - c.place.length)
      | .error _ => none
    | _ => doctypeText? d ts

/-- The document type declaration of a text as it is written up to its closing bracket, if the
text has one. -/
def writtenDoctype? (s : List Char) : Option (List Char) :=
  match readOpening (lexProlog s) with
  | .ok (isStandalone, ts) => doctypeText? (Dtd.empty isStandalone) (withoutSpace ts)
  | .error _ => none

/-- A closing bracket that ends a declaration stands in the text, and the lexemes behind it are
those of the text behind it. -/
lemma EndsDeclaration.exists_append {s : List Char} {rest : List PrologToken}
    (h : EndsDeclaration rest (withoutSpace (lexProlog s))) :
    ∃ c w, s = w ++ c.place ∧ c.place = '>' :: c.rest ∧
      rest = withoutSpace (lexProlog c.rest) ∧
      ((withoutSpace (lexProlog s)).take
        ((withoutSpace (lexProlog s)).length - rest.length)).getLast? = some c := by
  obtain ⟨taken, c, hts, hc⟩ := h
  have hlast : ((withoutSpace (lexProlog s)).take
      ((withoutSpace (lexProlog s)).length - rest.length)).getLast? = some c := by
    have hlen : (taken ++ c :: rest).length - rest.length = (taken ++ [c]).length := by
      simp only [List.length_append, List.length_cons, List.length_nil]
      omega
    have happend : taken ++ c :: rest = (taken ++ [c]) ++ rest := by
      rw [List.append_assoc, List.singleton_append]
    rw [hts, hlen, happend, List.take_left, List.getLast?_concat]
  -- the bracket is one of the lexemes of the text, with white space in between
  obtain ⟨a, b, hab, -, hb⟩ := List.filter_eq_append_iff.1 hts
  obtain ⟨b₁, b₂, rfl, -, -, rfl⟩ := List.filter_eq_cons_iff.1 hb
  rw [← List.append_assoc] at hab
  obtain ⟨rfl, ⟨w, hw⟩, hlexeme⟩ := lexProlog_of_append hab (by rw [hc]; exact Lexeme.noConfusion)
    (by rw [hc]; exact fun f => Lexeme.noConfusion)
  refine ⟨c, w, hw.symm, ?_, rfl, hlast⟩
  rw [hc] at hlexeme
  cases hlexeme with
  | closeDeclaration hs => exact hs
  | inner hl _ => cases hl

/-- A document type declaration is written up to a closing bracket of its own. -/
lemma exists_doctype {d : Dtd} {s : List Char}
    {parsed : Parsed (withoutSpace (lexProlog s)) Dtd}
    (h : takeDoctype d (withoutSpace (lexProlog s)) = .ok parsed) :
    ∃ w rest, s = w ++ '>' :: rest ∧ parsed.rest = withoutSpace (lexProlog rest) ∧
      ∀ before, doctypeText? d
        (⟨.openDeclaration "DOCTYPE".toList, before ++ s, s⟩ :: withoutSpace (lexProlog s))
          = some (before ++ w) := by
  obtain ⟨c, w, hs, hc, hrest, hlast⟩ := (endsDeclaration_of_takeDoctype h).exists_append
  refine ⟨w, c.rest, hc ▸ hs, hrest, ?_⟩
  intro before
  have htext : (before ++ s).take ((before ++ s).length - c.place.length) = before ++ w := by
    rw [hs, ← List.append_assoc, List.length_append, Nat.add_sub_cancel, List.take_left]
  rw [doctypeText?]
  simp only [h, hlast, Option.map_some, htext]

/-! ## The prolog -/

/-- What may stand between an XML declaration and the root element, with which the text `root`
begins. The document type declarations up to their closing brackets are as `allowed` has them. -/
inductive IsProlog (allowed : List Char → Prop) (root : List Char) : List Char → Prop where
  | root {c : Char} {r : List Char} (hroot : root = '<' :: c :: r) (hc : c ∉ ['!', '?', '/']) :
    IsProlog allowed root root
  | space {w s : List Char} (hw : IsSpaces w) (h : IsProlog allowed root s) :
    IsProlog allowed root (w ++ s)
  | comment {r s : List Char} (hr : scanComment r = .ok s) (h : IsProlog allowed root s) :
    IsProlog allowed root ('<' :: '!' :: '-' :: '-' :: r)
  | instruction {r s : List Char} (hr : scanInstruction r = .ok (false, s))
    (h : IsProlog allowed root s) : IsProlog allowed root ('<' :: '?' :: r)
  | doctype {w s : List Char} (hw : allowed ("<!DOCTYPE".toList ++ w))
    (h : IsProlog allowed root s) : IsProlog allowed root ("<!DOCTYPE".toList ++ (w ++ '>' :: s))

/-- Where a prolog is read up to the root element, it is one. -/
lemma isProlog_of_readMisc {allowed : List Char → Prop} {d d' : Dtd} {mayDeclare : Bool}
    {s root : List Char}
    (h : readMisc d mayDeclare (withoutSpace (lexProlog s)) = .ok (d', root))
    (hallowed : mayDeclare = true →
      ∀ w, doctypeText? d (withoutSpace (lexProlog s)) = some w → allowed w) :
    IsProlog allowed root s := by
  -- on the length of the text; a declaration takes more than one lexeme
  induction hn : s.length using Nat.strongRecOn generalizing s d mayDeclare with
  | ind n ih =>
    subst hn
    rcases lexProlog_cases s with ⟨-, hs⟩ | ⟨f, hs⟩ | ⟨c, r, rest, hroot, hc, hs⟩ |
      ⟨l, rest, hl, hne, hlt, hs⟩
    · rw [hs, withoutSpace, List.filter_nil, readMisc] at h
      cases h
    · rw [hs, withoutSpace_cons Lexeme.noConfusion, readMisc] at h
      cases h
    · rw [hs, withoutSpace_cons Lexeme.noConfusion, readMisc] at h
      cases h
      exact .root hroot hc
    · rw [hs] at h hallowed
      cases hl with
      | space hw heq =>
        rw [heq]
        exact .space hw (ih _ hlt h hallowed rfl)
      | comment heq hr =>
        rw [withoutSpace_cons Lexeme.noConfusion, readMisc] at h
        rw [heq]
        exact .comment hr (ih _ hlt h hallowed rfl)
      | instruction heq hr =>
        rw [withoutSpace_cons Lexeme.noConfusion, readMisc] at h
        rw [heq]
        exact .instruction hr (ih _ hlt h hallowed rfl)
      | declaration heq hr =>
        rw [withoutSpace_cons Lexeme.noConfusion, readMisc] at h
        cases h
      | @openDeclaration kind _ heq =>
        rw [withoutSpace_cons Lexeme.noConfusion] at h hallowed
        rw [readMisc] at h
        dsimp only at h
        split at h
        · next hdoctype =>
          obtain ⟨hmay, rfl⟩ := hdoctype
          split at h
          · cases h
          · next d₁ ts hbehind htake =>
            obtain ⟨w, rest', rfl, hts, htext⟩ := exists_doctype htake
            have hs' : s = "<!DOCTYPE".toList ++ (w ++ '>' :: rest') := heq
            have hlt' : rest'.length < s.length := by
              rw [hs']
              simp only [List.length_append, List.length_cons]
              omega
            change ts = _ at hts
            rw [hts] at h
            have hw : allowed ("<!DOCTYPE".toList ++ w) := by
              apply hallowed hmay
              rw [hs']
              exact htext "<!DOCTYPE".toList
            rw [hs']
            exact .doctype hw (ih _ hlt' h (fun hfalse => Bool.noConfusion hfalse) rfl)
        · cases h
      | closeDeclaration heq =>
        rw [withoutSpace_cons Lexeme.noConfusion, readMisc] at h
        cases h
      | root _ _ => exact absurd rfl hne
      | inner hinner _ =>
        rw [withoutSpace_cons (by rintro rfl; cases hinner), readMisc] at h
        split at h
        · next hl => exact absurd hl hne
        · next hl =>
          change l = _ at hl
          rw [hl] at hinner
          cases hinner
        · next hl =>
          change l = _ at hl
          rw [hl] at hinner
          cases hinner
        · cases h

/-- The text from the root element on ends the whole text. -/
lemma IsProlog.suffix {allowed : List Char → Prop} {root s : List Char}
    (h : IsProlog allowed root s) : root <:+ s := by
  induction h with
  | root _ _ => exact List.suffix_rfl
  | @space w s _ _ ih => exact ih.trans (List.suffix_append w s)
  | @comment r s hr _ ih =>
    obtain ⟨w, rfl⟩ := eq_of_scanComment hr
    exact ih.trans ⟨'<' :: '!' :: '-' :: '-' :: (w ++ ['-', '-', '>']), by simp⟩
  | @instruction r s hr _ ih =>
    obtain ⟨w, rfl⟩ := exists_append_of_scanInstruction hr
    exact ih.trans ⟨'<' :: '?' :: (w ++ ['?', '>']), by simp⟩
  | @doctype w s _ _ ih => exact ih.trans ⟨"<!DOCTYPE".toList ++ (w ++ ['>']), by simp⟩

/-- A root element begins with a bracket, and not as an instruction or another kind of markup. -/
lemma IsProlog.root_start {allowed : List Char → Prop} {root s : List Char}
    (h : IsProlog allowed root s) : ∃ c r, root = '<' :: c :: r ∧ c ∉ ['!', '?', '/'] := by
  induction h with
  | root hroot hc => exact ⟨_, _, hroot, hc⟩
  | space _ _ ih => exact ih
  | comment _ _ ih => exact ih
  | instruction _ _ ih => exact ih
  | doctype _ _ ih => exact ih

/-! ## The XML declaration -/

/-- Whether an XML declaration stands between two places of a text. -/
structure IsDeclared (s rest : List Char) : Prop where
  written : ∃ inner isStandalone, s = "<?xml".toList ++ (inner ++ '?' :: '>' :: rest) ∧
    readDeclaration inner = .ok isStandalone
  scanned : ∃ r, s = '<' :: '?' :: r ∧ scanInstruction r = .ok (true, rest)

lemma eq_of_readOpening {s : List Char} {b : Bool} {ts : List PrologToken}
    (h : readOpening (lexProlog s) = .ok (b, ts)) :
    ∃ s', (s' = s ∨ IsDeclared s s') ∧ ts = lexProlog s' := by
  rcases lexProlog_cases s with ⟨-, hs⟩ | ⟨f, hs⟩ | ⟨c, r, rest, hroot, hc, hs⟩ |
    ⟨l, rest, hl, hne, hlt, hs⟩
  · rw [hs] at h
    cases h
    exact ⟨s, Or.inl rfl, hs.symm⟩
  · rw [hs] at h
    cases h
    exact ⟨s, Or.inl rfl, hs.symm⟩
  · rw [hs] at h
    cases h
    exact ⟨s, Or.inl rfl, hs.symm⟩
  · rw [hs, readOpening] at h
    split at h
    · next hdeclaration =>
      change l = _ at hdeclaration
      subst hdeclaration
      dsimp only at h
      split at h
      · next hread =>
        cases h
        cases hl with
        | @declaration r _ heq hr =>
          refine ⟨rest, Or.inr ⟨?_, r, heq, hr⟩, rfl⟩
          obtain ⟨target, r', -, rfl, htarget, hr'⟩ := eq_of_scanInstruction hr
          have htarget : target = "xml".toList := by simpa using htarget.symm
          subst htarget
          -- the inner text goes from the target to the end of the instruction
          have hinner : ∃ inner, r' = inner ++ '?' :: '>' :: rest := by
            rcases hr' with rfl | ⟨c, body, -, rfl, hbody⟩
            · exact ⟨[], rfl⟩
            · obtain ⟨w, rfl⟩ := eq_of_scanInstructionBody hbody
              exact ⟨c :: w, rfl⟩
          obtain ⟨inner, rfl⟩ := hinner
          have hs' : s = ("<?xml".toList ++ inner) ++ ('?' :: '>' :: rest) := by
            rw [heq]
            simp
          have hlen : s.length - rest.length - 2 = ("<?xml".toList ++ inner).length := by
            rw [hs']
            simp only [List.length_append, List.length_cons]
            omega
          rw [hlen, hs', List.take_left] at hread
          exact ⟨inner, b, by rw [hs', List.append_assoc], hread⟩
        | inner hinner _ => cases hinner
      · cases h
    · cases h
      exact ⟨s, Or.inl rfl, hs.symm⟩

/-- What is read in front of the root element is an XML declaration or none, and a prolog. -/
theorem isProlog_of_readProlog {allowed : List Char → Prop} {d : Dtd} {s root : List Char}
    (h : readProlog s = .ok (d, root)) (hallowed : ∀ w, writtenDoctype? s = some w → allowed w) :
    ∃ s', (s' = s ∨ IsDeclared s s') ∧ IsProlog allowed root s' := by
  obtain ⟨⟨isStandalone, ts⟩, hopening, hmisc⟩ := bind_eq_ok_iff.1 h
  obtain ⟨s', hs', rfl⟩ := eq_of_readOpening hopening
  refine ⟨s', hs', isProlog_of_readMisc hmisc fun _ w hw => hallowed w ?_⟩
  rw [writtenDoctype?, hopening]
  exact hw

/-! ## Behind the root element -/

/-- What may stand behind the root element. -/
inductive IsEpilog : List Char → Prop where
  | ended : IsEpilog []
  | space {w s : List Char} (hw : IsSpaces w) (h : IsEpilog s) : IsEpilog (w ++ s)
  | comment {r s : List Char} (hr : scanComment r = .ok s) (h : IsEpilog s) :
    IsEpilog ('<' :: '!' :: '-' :: '-' :: r)
  | instruction {r s : List Char} (hr : scanInstruction r = .ok (false, s)) (h : IsEpilog s) :
    IsEpilog ('<' :: '?' :: r)

lemma isEpilog_of_epilogFault? {s : List Char} (h : epilogFault? s = none) : IsEpilog s := by
  unfold epilogFault? at h
  rw [Option.map_eq_none_iff, List.head?_eq_none_iff, List.dropWhile_eq_nil_iff] at h
  -- lexeme by lexeme, none of which is a fault
  induction hn : s.length using Nat.strongRecOn generalizing s with
  | ind n ih =>
    subst hn
    rcases lexProlog_cases s with ⟨rfl, -⟩ | ⟨f, hs⟩ | ⟨c, r, rest, -, -, hs⟩ |
      ⟨l, rest, hl, -, hlt, hs⟩
    · exact .ended
    · rw [hs] at h
      cases h _ List.mem_cons_self
    · rw [hs] at h
      cases h _ List.mem_cons_self
    · rw [hs] at h
      have hrest : IsEpilog rest := ih _ hlt (fun t ht => h t (List.mem_cons_of_mem _ ht)) rfl
      have hfirst := h _ List.mem_cons_self
      dsimp only at hfirst
      cases hl with
      | space hw heq =>
        rw [heq]
        exact .space hw hrest
      | comment heq hr =>
        rw [heq]
        exact .comment hr hrest
      | instruction heq hr =>
        rw [heq]
        exact .instruction hr hrest
      | declaration _ _ => cases hfirst
      | openDeclaration _ => cases hfirst
      | closeDeclaration _ => cases hfirst
      | root _ _ => cases hfirst
      | inner hinner _ =>
        rw [Bool.or_eq_true, beq_iff_eq, beq_iff_eq] at hfirst
        rcases hfirst with rfl | rfl <;> cases hinner

end Netconf.Xml
