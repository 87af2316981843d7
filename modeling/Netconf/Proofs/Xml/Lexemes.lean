import Netconf.Proofs.Xml.Written
import Netconf.Xml.Lexeme

/-!
# Lexemes and the text they were read from

Each lexeme outside the root element stands where the one before it ended. `scanLexeme_cases` says
how it is written, for those that may stand outside a declaration, and `lexProlog_cases` what the
lexemes of a text begin with.
-/

namespace Netconf.Xml

open Netconf.Outcome

/-- Whether a lexeme can only stand inside a declaration. -/
def Lexeme.isInner : Lexeme → Bool
  | .space | .aside | .declaration | .openDeclaration _ | .closeDeclaration | .root
  | .broken _ => false
  | _ => true

lemma suffix_of_scanQuoted {quote : Char} {s t rest : List Char}
    (h : scanQuoted quote s = .ok (t, rest)) : rest <:+ s := by
  induction s generalizing t rest with
  | nil => cases h
  | cons c s ih =>
    unfold scanQuoted at h
    split at h
    · cases h
      exact List.suffix_cons c s
    · split at h
      · obtain ⟨⟨t', r⟩, hr, hret⟩ := map_eq_ok_iff.1 h
        simp only [Prod.mk.injEq] at hret
        obtain ⟨-, rfl⟩ := hret
        exact (ih hr).trans (List.suffix_cons c s)
      · cases h

lemma scanQuotedLexeme_cases {quote : Char} {s rest : List Char} {l : Lexeme}
    (h : scanQuotedLexeme quote s = .ok (l, rest)) : l.isInner = true ∧ rest <:+ s := by
  obtain ⟨⟨t, r⟩, hr, htail⟩ := bind_eq_ok_iff.1 h
  dsimp only at htail
  split at htail
  · cases htail
    exact ⟨rfl, suffix_of_scanQuoted hr⟩
  · cases htail

lemma scanCloseParen_cases {s rest : List Char} {l : Lexeme}
    (h : scanCloseParen s = .ok (l, rest)) : l.isInner = true ∧ rest <:+ s := by
  unfold scanCloseParen at h
  split at h
  · cases h
    exact ⟨rfl, List.suffix_rfl⟩
  · split at h
    · cases h
      exact ⟨rfl, List.suffix_cons _ _⟩
    · split at h
      · cases h
        exact ⟨rfl, List.suffix_rfl⟩
      · cases h

lemma scanCloseBracket_cases {s rest : List Char} {l : Lexeme}
    (h : scanCloseBracket s = .ok (l, rest)) : l.isInner = true ∧ rest <:+ s := by
  unfold scanCloseBracket at h
  split at h
  · cases h
  · cases h
    exact ⟨rfl, ⟨[']', '>'], rfl⟩⟩
  · cases h
    exact ⟨rfl, List.suffix_rfl⟩

variable [encoding : Encoding]

/-! ## One lexeme -/

lemma suffix_of_scanName {s name rest : List Char} (h : scanName s = .ok (name, rest)) :
    rest <:+ s := by
  obtain ⟨-, rfl⟩ := eq_of_scanName h
  exact List.suffix_append name rest

lemma scanPercent_cases {s rest : List Char} {l : Lexeme} (h : scanPercent s = .ok (l, rest)) :
    l.isInner = true ∧ rest <:+ s := by
  unfold scanPercent at h
  split at h
  · cases h
  · split at h
    · cases h
      exact ⟨rfl, List.suffix_rfl⟩
    · obtain ⟨⟨n, r₁⟩, hname, htail⟩ := bind_eq_ok_iff.1 h
      obtain ⟨⟨u, r₂⟩, hsemi, hret⟩ := bind_eq_ok_iff.1 htail
      have hr₁ := eq_of_scanChar hsemi
      cases hret
      subst hr₁
      exact ⟨rfl, (List.suffix_cons _ _).trans (suffix_of_scanName hname)⟩

lemma scanHashName_cases {s rest : List Char} {l : Lexeme} (h : scanHashName s = .ok (l, rest)) :
    l.isInner = true ∧ rest <:+ s := by
  obtain ⟨⟨n, r⟩, hname, htail⟩ := bind_eq_ok_iff.1 h
  dsimp only at htail
  split at htail
  · cases htail
    exact ⟨rfl, suffix_of_scanName hname⟩
  · cases htail

lemma scanNameLexeme_cases {kind : NameKind} {read s rest : List Char} {l : Lexeme}
    (h : scanNameLexeme kind read s = .ok (l, rest)) : l.isInner = true ∧ rest <:+ s := by
  induction s generalizing kind read with
  | nil =>
    cases h
    exact ⟨rfl, List.suffix_rfl⟩
  | cons c s ih =>
    unfold scanNameLexeme at h
    split at h
    · exact ⟨(ih h).1, (ih h).2.trans (List.suffix_cons c s)⟩
    split at h
    · cases h
      exact ⟨rfl, List.suffix_rfl⟩
    split at h
    · split at h
      · cases h
      · exact ⟨(ih h).1, (ih h).2.trans (List.suffix_cons c s)⟩
    split at h
    · cases h
      exact ⟨rfl, List.suffix_cons c _⟩
    · cases h

lemma scanOpenDeclaration_cases {s rest : List Char} {l : Lexeme}
    (h : scanOpenDeclaration s = .ok (l, rest)) :
    ∃ kind, l = .openDeclaration kind ∧ s = kind ++ rest := by
  unfold scanOpenDeclaration at h
  dsimp only at h
  have hs : s.takeWhile isKindChar ++ s.dropWhile isKindChar = s :=
    List.takeWhile_append_dropWhile
  split at h
  · cases h
  · cases h
  · split at h
    · cases h
    · cases h
      exact ⟨_, rfl, hs.symm⟩
  · split at h
    · cases h
      exact ⟨_, rfl, hs.symm⟩
    · cases h
  · cases h

/-- Other markup does not begin like the root element. -/
lemma beginsRoot_of_mem : ∀ c ∈ ['!', '?', '/'], beginsRoot c = false := by
  have hnone : ['!', '?', '/'].any beginsRoot = false := by
    obtain ⟨_ | _⟩ := encoding <;> rfl
  exact fun c hc => Bool.eq_false_iff.2 (List.any_eq_false.1 hnone c hc)

/-- The lexemes that start with an angle bracket. -/
lemma scanAngle_cases {s rest : List Char} {l : Lexeme} (h : scanAngle s = .ok (l, rest)) :
    (∃ r, s = '!' :: '-' :: '-' :: r ∧ l = .aside ∧ scanComment r = .ok rest) ∨
      (∃ b r, s = '?' :: r ∧ l = (if b then .declaration else .aside) ∧
        scanInstruction r = .ok (b, rest)) ∨
      (∃ kind, s = '!' :: (kind ++ rest) ∧ l = .openDeclaration kind) ∨
      (∃ c r, s = c :: r ∧ c ∉ ['!', '?', '/'] ∧ l = .root) ∨ (l.isInner = true ∧ rest <:+ s) := by
  unfold scanAngle at h
  split at h
  · obtain ⟨⟨u, r⟩, hdash, htail⟩ := bind_eq_ok_iff.1 h
    obtain ⟨r', hr, hret⟩ := map_eq_ok_iff.1 htail
    cases hret
    exact Or.inl ⟨r, by rw [eq_of_scanChar hdash], rfl, hr⟩
  · cases h
    exact Or.inr (Or.inr (Or.inr (Or.inr ⟨rfl, ⟨['!', '['], rfl⟩⟩)))
  · obtain ⟨kind, rfl, rfl⟩ := scanOpenDeclaration_cases h
    exact Or.inr (Or.inr (Or.inl ⟨kind, rfl, rfl⟩))
  · obtain ⟨⟨b, r⟩, hr, hret⟩ := map_eq_ok_iff.1 h
    cases hret
    exact Or.inr (Or.inl ⟨b, _, rfl, rfl, hr⟩)
  · cases h
  · next c s _ _ _ _ =>
    split at h
    · next hc =>
      cases h
      refine Or.inr (Or.inr (Or.inr (Or.inl ⟨c, rest, rfl, ?_, rfl⟩)))
      intro hmem
      rw [beginsRoot_of_mem c hmem] at hc
      cases hc
    · cases h

/-- A lexeme by the way it is written. Those that only stand inside a declaration are not told
apart. -/
inductive IsLexeme (s : List Char) : Lexeme → List Char → Prop where
  | space {w rest} (hw : IsSpaces w) (hs : s = w ++ rest) : IsLexeme s .space rest
  | comment {r rest} (hs : s = '<' :: '!' :: '-' :: '-' :: r) (hr : scanComment r = .ok rest) :
    IsLexeme s .aside rest
  | instruction {r rest} (hs : s = '<' :: '?' :: r) (hr : scanInstruction r = .ok (false, rest)) :
    IsLexeme s .aside rest
  | declaration {r rest} (hs : s = '<' :: '?' :: r) (hr : scanInstruction r = .ok (true, rest)) :
    IsLexeme s .declaration rest
  | openDeclaration {kind rest} (hs : s = '<' :: '!' :: (kind ++ rest)) :
    IsLexeme s (.openDeclaration kind) rest
  | closeDeclaration {rest} (hs : s = '>' :: rest) : IsLexeme s .closeDeclaration rest
  | root {c r rest} (hs : s = '<' :: c :: r) (hc : c ∉ ['!', '?', '/']) : IsLexeme s .root rest
  | inner {l rest} (hl : l.isInner = true) (hs : rest <:+ s) : IsLexeme s l rest

lemma scanLexemeBehind_cases {c : Char} {s rest : List Char} {l : Lexeme}
    (h : scanLexemeBehind c s = .ok (l, rest)) :
    IsLexeme (c :: s) l rest := by
  -- whatever only stands inside a declaration need not be told apart
  have inner {l : Lexeme} {rest : List Char} (h : l.isInner = true ∧ rest <:+ s) :
      IsLexeme (c :: s) l rest := .inner h.1 (h.2.trans (List.suffix_cons c s))
  unfold scanLexemeBehind at h
  split at h
  · next hc =>
    subst hc
    rcases scanAngle_cases h with ⟨r, rfl, rfl, hr⟩ | ⟨b, r, rfl, rfl, hr⟩ | ⟨kind, rfl, rfl⟩ |
      ⟨d, r, rfl, hd, rfl⟩ | hinner
    · exact .comment rfl hr
    · cases b
      · exact .instruction rfl hr
      · exact .declaration rfl hr
    · exact .openDeclaration rfl
    · exact .root rfl hd
    · exact inner hinner
  split at h
  · exact inner (scanQuotedLexeme_cases h)
  split at h
  · exact inner (scanPercent_cases h)
  split at h
  · exact inner (scanHashName_cases h)
  split at h
  · exact inner (scanCloseBracket_cases h)
  split at h
  · exact inner (scanCloseParen_cases h)
  split at h
  · exact inner (scanNameLexeme_cases h)
  split at h
  · exact inner (scanNameLexeme_cases h)
  · cases h

/-- What a lexeme is written as. -/
lemma scanLexeme_cases {s rest : List Char} {l : Lexeme} (h : scanLexeme s = .ok (l, rest)) :
    IsLexeme s l rest := by
  unfold scanLexeme at h
  split at h
  · cases h
  · next c s =>
    split at h
    · next hc =>
      cases h
      refine .space (w := c :: s.takeWhile isSpace) ?_ ?_
      · intro d hd
        rcases List.mem_cons.1 hd with rfl | hd
        · exact hc
        · exact List.mem_takeWhile_imp hd
      · rw [List.cons_append, skipSpace, List.takeWhile_append_dropWhile]
    · split at h
      · next l' hl =>
        cases h
        unfold punctuation? at hl
        split at hl
        · cases hl
          exact .inner rfl (List.suffix_cons _ _)
        split at hl
        · cases hl
          exact .inner rfl (List.suffix_cons _ _)
        split at hl
        · next hc =>
          cases hl
          exact .closeDeclaration (by rw [hc])
        split at hl
        · cases hl
          exact .inner rfl (List.suffix_cons _ _)
        split at hl
        · cases hl
          exact .inner rfl (List.suffix_cons _ _)
        · cases hl
      · exact scanLexemeBehind_cases h

/-- A lexeme leaves a rest of the text, unless the root element begins. -/
lemma IsLexeme.suffix {s rest : List Char} {l : Lexeme} (h : IsLexeme s l rest)
    (hl : l ≠ .root) : rest <:+ s := by
  cases h with
  | @space w _ hw hs => exact ⟨w, hs.symm⟩
  | @comment r _ hs hr =>
    obtain ⟨w, rfl⟩ := eq_of_scanComment hr
    exact ⟨'<' :: '!' :: '-' :: '-' :: (w ++ ['-', '-', '>']), by simp [hs]⟩
  | @instruction r _ hs hr =>
    obtain ⟨w, rfl⟩ := exists_append_of_scanInstruction hr
    exact ⟨'<' :: '?' :: (w ++ ['?', '>']), by simp [hs]⟩
  | @declaration r _ hs hr =>
    obtain ⟨w, rfl⟩ := exists_append_of_scanInstruction hr
    exact ⟨'<' :: '?' :: (w ++ ['?', '>']), by simp [hs]⟩
  | @openDeclaration kind _ hs => exact ⟨'<' :: '!' :: kind, by simp [hs]⟩
  | closeDeclaration hs => exact ⟨['>'], hs.symm⟩
  | root _ _ => exact absurd rfl hl
  | inner _ hs => exact hs

/-! ## The lexemes of a text -/

/-- What the lexemes of a text begin with. -/
lemma lexProlog_cases (s : List Char) :
    (s = [] ∧ lexProlog s = []) ∨ (∃ f, lexProlog s = [⟨.broken f, s, []⟩]) ∨
      (∃ c r rest, s = '<' :: c :: r ∧ c ∉ ['!', '?', '/'] ∧ lexProlog s = [⟨.root, s, rest⟩]) ∨
      ∃ l rest, IsLexeme s l rest ∧ l ≠ .root ∧ rest.length < s.length ∧
        lexProlog s = ⟨l, s, rest⟩ :: lexProlog rest := by
  cases s with
  | nil => exact Or.inl ⟨rfl, by rw [lexProlog]⟩
  | cons c s =>
    right
    rw [lexProlog]
    split
    · exact Or.inl ⟨_, rfl⟩
    · next l rest hscan =>
      right
      dsimp only
      split
      · next hl =>
        subst hl
        cases scanLexeme_cases hscan with
        | @root c' r _ hs hc => exact Or.inl ⟨c', r, rest, hs, hc, rfl⟩
        | inner hl _ => cases hl
      · next hl =>
        exact Or.inr ⟨l, rest, scanLexeme_cases hscan, hl, length_of_scanLexeme hscan, rfl⟩

/-- The lexemes behind one that is neither the last nor cannot be read are those of its rest. -/
lemma lexProlog_of_append {s : List Char} {a b : List PrologToken} {t : PrologToken}
    (h : lexProlog s = a ++ t :: b) (hroot : t.lexeme ≠ .root)
    (hbroken : ∀ f, t.lexeme ≠ .broken f) :
    b = lexProlog t.rest ∧ t.place <:+ s ∧ IsLexeme t.place t.lexeme t.rest := by
  -- on the lexemes in front
  induction a generalizing s with
  | nil =>
    rcases lexProlog_cases s with ⟨-, hs⟩ | ⟨f, hs⟩ |
      ⟨-, -, rest, -, -, hs⟩ | ⟨l, rest, hl, -, -, hs⟩
    · rw [hs] at h
      cases h
    · rw [hs] at h
      cases h
      exact absurd rfl (hbroken f)
    · rw [hs] at h
      cases h
      exact absurd rfl hroot
    · rw [hs] at h
      cases h
      exact ⟨rfl, List.suffix_rfl, hl⟩
  | cons u a ih =>
    rcases lexProlog_cases s with ⟨-, hs⟩ | ⟨f, hs⟩ |
      ⟨-, -, rest, -, -, hs⟩ | ⟨l, rest, hl, hne, -, hs⟩
    · rw [hs] at h
      cases h
    · rw [hs, List.cons_append] at h
      -- a lexeme that cannot be read is the last one
      have := List.append_ne_nil_of_right_ne_nil a (List.cons_ne_nil t b)
      exact absurd (List.cons.inj h).2.symm this
    · rw [hs, List.cons_append] at h
      have := List.append_ne_nil_of_right_ne_nil a (List.cons_ne_nil t b)
      exact absurd (List.cons.inj h).2.symm this
    · rw [hs] at h
      obtain ⟨-, hmore⟩ := List.cons.inj h
      obtain ⟨hb, hplace, ht⟩ := ih hmore
      exact ⟨hb, hplace.trans (hl.suffix hne), ht⟩

end Netconf.Xml
