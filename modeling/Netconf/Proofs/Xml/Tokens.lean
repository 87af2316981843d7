import Netconf.Proofs.Xml.Written
import Netconf.Xml.LineEnd

/-!
# Tokens and the text they were read from

Each token of content stands where the one before it ended, and its kind tells how it is written
(`scanMarkup_cases`). `lex_induction` goes through a text token by token.
-/

namespace Netconf.Xml

open Netconf.Outcome Netconf.Text

/-- A class of characters that holds what ends a line holds a text with its line ends unified
exactly if it holds the text. -/
lemma forall_mem_unifyLineEnds {p : Char → Prop} (hreturn : p '\r') (hfeed : p '\n')
    {s : List Char} : (∀ c ∈ unifyLineEnds s, p c) ↔ ∀ c ∈ s, p c := by
  fun_induction unifyLineEnds s with
  | case1 s ih => simp only [List.forall_mem_cons, ih, hreturn, hfeed, true_and]
  | case2 c s _ ih =>
    rw [List.forall_mem_cons, List.forall_mem_cons, ih]
    split
    · next hc => simp only [hc, hreturn, hfeed]
    · rfl
  | case3 => rfl

/-- Text ends where markup begins. -/
lemma not_mem_splitText (s : List Char) : '<' ∉ (splitText s).1 := by
  induction s with
  | nil => exact List.not_mem_nil
  | cons c s ih =>
    unfold splitText
    split
    · exact List.not_mem_nil
    · next hends =>
      rw [List.mem_cons, not_or]
      refine ⟨?_, ih⟩
      rintro rfl
      exact hends rfl

variable [Encoding]

/-! ## One token -/

/-- A token by the way it is written. -/
inductive IsMarkup (s : List Char) : Markup → List Char → Prop where
  | text {w rest} (hs : s = w ++ rest) (hne : w ≠ []) (hw : '<' ∉ w) : IsMarkup s (.text w) rest
  | reference {r ref rest} (hs : s = '&' :: r) (hr : Reference.scan r = .ok (ref, rest)) :
    IsMarkup s (.reference ref) rest
  | comment {r rest} (hs : s = '<' :: '!' :: '-' :: '-' :: r) (hr : scanComment r = .ok rest) :
    IsMarkup s .aside rest
  | cdata {t r rest} (hs : s = '<' :: '!' :: '[' :: r) (hr : scanCdata r = .ok (t, rest)) :
    IsMarkup s (.cdata t) rest
  | instruction {r rest} (hs : s = '<' :: '?' :: r) (hr : scanInstruction r = .ok (false, rest)) :
    IsMarkup s .aside rest
  | declaration {r rest} (hs : s = '<' :: '?' :: r) (hr : scanInstruction r = .ok (true, rest)) :
    IsMarkup s .declaration rest
  | endTag {name w rest} (hs : s = '<' :: '/' :: (name ++ (w ++ '>' :: rest)))
    (hname : IsTagName name) (hw : IsSpaces w) : IsMarkup s (.endTag name) rest
  | startTag {t w rest} (hs : s = '<' :: (t.name ++ (w ++ (tagEnd t.isEmpty ++ rest))))
    (hname : IsTagName t.name) (hw : IsAttributeText t.attributes w) :
    IsMarkup s (.startTag t) rest

lemma scanBang_cases {s rest : List Char} {m : Markup} (h : scanBang s = .ok (m, rest)) :
    IsMarkup ('<' :: '!' :: s) m rest := by
  unfold scanBang at h
  split at h
  · obtain ⟨⟨u, r⟩, hdash, htail⟩ := bind_eq_ok_iff.1 h
    obtain ⟨r', hr, hret⟩ := map_eq_ok_iff.1 htail
    cases hret
    exact .comment (by rw [eq_of_scanChar hdash]) hr
  · obtain ⟨⟨t, r⟩, hr, hret⟩ := map_eq_ok_iff.1 h
    cases hret
    exact .cdata rfl hr
  · cases h

lemma scanBracket_cases {s rest : List Char} {m : Markup} (h : scanBracket s = .ok (m, rest)) :
    IsMarkup ('<' :: s) m rest := by
  unfold scanBracket at h
  split at h
  · exact scanBang_cases h
  · obtain ⟨⟨b, r⟩, hr, hret⟩ := map_eq_ok_iff.1 h
    cases hret
    cases b with
    | false => exact .instruction rfl hr
    | true => exact .declaration rfl hr
  · obtain ⟨⟨name, r⟩, hr, hret⟩ := map_eq_ok_iff.1 h
    cases hret
    obtain ⟨hname, w, hw, rfl⟩ := eq_of_scanEndTag hr
    exact .endTag rfl hname hw
  · obtain ⟨⟨t, r⟩, hr, hret⟩ := map_eq_ok_iff.1 h
    cases hret
    obtain ⟨hname, w, hw, rfl⟩ := eq_of_scanStartTag hr
    exact .startTag rfl hname hw

/-- What a token is written as. -/
lemma scanMarkup_cases {s rest : List Char} {m : Markup} (h : scanMarkup s = .ok (m, rest)) :
    IsMarkup s m rest := by
  unfold scanMarkup at h
  split at h
  · exact scanBracket_cases h
  · obtain ⟨⟨ref, r⟩, hr, hret⟩ := map_eq_ok_iff.1 h
    cases hret
    exact .reference rfl hr
  · split at h
    · cases h
    · next w r hne hsplit =>
      simp only [Except.ok.injEq, Prod.mk.injEq] at h
      obtain ⟨rfl, rfl⟩ := h
      have happend := splitText_append s
      have hopen := not_mem_splitText s
      rw [hsplit] at happend hopen
      exact .text happend.symm hne hopen

/-- A token leaves a rest of the text. -/
lemma IsMarkup.suffix {s rest : List Char} {m : Markup} (h : IsMarkup s m rest) :
    rest <:+ s := by
  cases h with
  | @text w _ hs _ _ => exact ⟨w, hs.symm⟩
  | reference hs hr =>
    obtain ⟨w, -, rfl⟩ := eq_of_scanReference hr
    exact ⟨'&' :: w ++ [';'], by simp [hs]⟩
  | comment hs hr =>
    obtain ⟨w, rfl⟩ := eq_of_scanComment hr
    exact ⟨'<' :: '!' :: '-' :: '-' :: (w ++ ['-', '-', '>']), by simp [hs]⟩
  | @cdata _ r _ hs hr =>
    rw [hs]
    exact (suffix_of_scanCdata hr).trans ⟨['<', '!', '['], rfl⟩
  | instruction hs hr =>
    obtain ⟨w, rfl⟩ := exists_append_of_scanInstruction hr
    exact ⟨'<' :: '?' :: (w ++ ['?', '>']), by simp [hs]⟩
  | declaration hs hr =>
    obtain ⟨w, rfl⟩ := exists_append_of_scanInstruction hr
    exact ⟨'<' :: '?' :: (w ++ ['?', '>']), by simp [hs]⟩
  | @endTag name w _ hs _ _ => exact ⟨'<' :: '/' :: (name ++ (w ++ ['>'])), by simp [hs]⟩
  | @startTag t w _ hs _ _ => exact ⟨'<' :: (t.name ++ (w ++ tagEnd t.isEmpty)), by simp [hs]⟩

lemma suffix_of_scanMarkup {s rest : List Char} {m : Markup} (h : scanMarkup s = .ok (m, rest)) :
    rest <:+ s := (scanMarkup_cases h).suffix

lemma eq_of_scanMarkup_startTag {s rest : List Char} {t : RawTag}
    (h : scanMarkup s = .ok (.startTag t, rest)) :
    IsTagName t.name ∧ ∃ w, IsAttributeText t.attributes w ∧
      s = '<' :: (t.name ++ (w ++ (tagEnd t.isEmpty ++ rest))) := by
  cases scanMarkup_cases h with
  | @startTag _ w _ hs hname hw => exact ⟨hname, w, hw, hs⟩

lemma eq_of_scanMarkup_endTag {s rest name : List Char}
    (h : scanMarkup s = .ok (.endTag name, rest)) :
    IsTagName name ∧ ∃ w, IsSpaces w ∧ s = '<' :: '/' :: (name ++ (w ++ '>' :: rest)) := by
  cases scanMarkup_cases h with
  | @endTag _ w _ hs hname hw => exact ⟨hname, w, hw, hs⟩

/-! ## The tokens of a text -/

lemma lex_of_scanMarkup {s rest : List Char} {m : Markup} (h : scanMarkup s = .ok (m, rest)) :
    lex s = ⟨m, s, rest⟩ :: lex rest := by
  cases s with
  | nil => cases h
  | cons c s =>
    rw [lex]
    split
    · next heq => rw [h] at heq; cases heq
    · next heq =>
      rw [h] at heq
      cases heq
      rfl

/-- Token by token: a text is used up, cannot be read further, or begins with a token. -/
theorem lex_induction {motive : List Char → Prop} (ended : motive [])
    (broken : ∀ s f, lex s = [⟨.broken f, s, []⟩] → motive s)
    (token : ∀ s m rest, scanMarkup s = .ok (m, rest) → motive rest → motive s)
    (s : List Char) : motive s := by
  -- on the length of the text, since every token takes a part of it
  induction hn : s.length using Nat.strongRecOn generalizing s with
  | ind n ih =>
    cases s with
    | nil => exact ended
    | cons c s =>
      cases hscan : scanMarkup (c :: s) with
      | error e =>
        refine broken _ (e.fault (c :: s)) ?_
        rw [lex]
        split
        · next heq =>
          rw [hscan] at heq
          cases heq
          rfl
        · next heq => rw [hscan] at heq; cases heq
      | ok r =>
        obtain ⟨m, rest⟩ := r
        exact token _ m rest hscan (ih _ (hn ▸ length_of_scanMarkup hscan) rest rfl)

/-- Where the tokens of a text stand. -/
lemma place_of_mem_lex {s : List Char} {t : Token} (h : t ∈ lex s) :
    t.place <:+ s ∧
      ((∃ f, t.markup = .broken f) ∨ scanMarkup t.place = .ok (t.markup, t.rest)) := by
  induction s using lex_induction with
  | ended =>
    rw [lex] at h
    cases h
  | broken s f hlex =>
    rw [hlex, List.mem_singleton] at h
    subst h
    exact ⟨List.suffix_rfl, Or.inl ⟨f, rfl⟩⟩
  | token s m rest hscan ih =>
    rw [lex_of_scanMarkup hscan] at h
    rcases List.mem_cons.1 h with rfl | h
    · exact ⟨List.suffix_rfl, Or.inr hscan⟩
    · obtain ⟨hplace, hmarkup⟩ := ih h
      exact ⟨hplace.trans (suffix_of_scanMarkup hscan), hmarkup⟩

end Netconf.Xml
