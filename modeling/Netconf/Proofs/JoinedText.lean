import Netconf.Proofs.OuterBlanks
import Netconf.Proofs.Xml.JoinedLines

/-!
# The text of a reply without its line feeds

What is looked for in the text of a reply stands inside of brackets, and of what stands between
them it matters at most whether it is blank. In a text that shows its tags (`ShowsTags`) the line
feeds stand between brackets, and without them the same is found (`reportsSuccess_joinLines`,
`payload_joinLines`).
-/

namespace Netconf.Reply

open Netconf.Text Netconf.Xml

/-! ## Texts that show their tags -/

/-- Whether every opening bracket of a text begins a tag on one line. -/
structure ShowsTags (s : List Char) : Prop where
  noBang : ¬ ['<', '!'] <:+: s
  tags : ∀ a b, s = a ++ '<' :: b → ∃ q r, b = q ++ '>' :: r ∧ '>' ∉ q ∧ '\n' ∉ q
  noFeed : ¬ ['\n', '>'] <:+: s

lemma ShowsTags.of_suffix {s t : List Char} (h : ShowsTags t) (hs : s <:+ t) : ShowsTags s where
  noBang := fun hbang => h.noBang (hbang.trans hs.isInfix)
  tags := by
    rintro a b rfl
    obtain ⟨x, rfl⟩ := hs
    exact h.tags (x ++ a) b (by simp)
  noFeed := fun hfeed => h.noFeed (hfeed.trans hs.isInfix)

lemma ShowsTags.tail {c : Char} {s : List Char} (h : ShowsTags (c :: s)) : ShowsTags s :=
  h.of_suffix (List.suffix_cons c s)

/-- The first tag of a text that begins with one. -/
lemma ShowsTags.first {s : List Char} (h : ShowsTags ('<' :: s)) :
    ∃ q r, s = q ++ '>' :: r ∧ '>' ∉ q ∧ '\n' ∉ q ∧ ShowsTags r := by
  obtain ⟨q, r, rfl, hclose, hfeed⟩ := h.tags [] s rfl
  exact ⟨q, r, rfl, hclose, hfeed, h.of_suffix ⟨'<' :: (q ++ ['>']), by simp⟩⟩

/-- A text with tags in brackets shows them if it is laid out on lines. -/
lemma showsTags_of_isLaidOut {x : List Char} (hx : IsLaidOut x) (h : IsBracketed x) :
    ShowsTags x where
  noBang := hx.noBang
  tags := by
    rintro a b rfl
    obtain ⟨q, r, rfl, hq⟩ := h a b rfl
    exact ⟨q, r, rfl, hx.tag hq⟩
  noFeed := by
    rintro ⟨a, b, rfl⟩
    -- the bracket behind the line feed would end the tag that it stands in
    obtain ⟨a', b', hab, hb'⟩ := hx.brackets (a ++ ['\n']) b (by simp)
    have htext : a ++ ['\n', '>'] ++ b = a' ++ '<' :: (b' ++ '>' :: b) := by
      have : a ++ ['\n', '>'] ++ b = (a ++ ['\n']) ++ '>' :: b := by simp
      rw [this, hab]
      simp
    have hfeed : '\n' ∈ b' := by
      have hsuffix : ['\n'] <:+ b' := suffix_behind ⟨a', hab.symm⟩ ⟨a, rfl⟩ (by decide)
      exact hsuffix.subset List.mem_cons_self
    obtain ⟨q, r, hqr, hq⟩ := h a' _ htext
    rw [htext, hqr] at hx
    obtain ⟨hclose, hnone⟩ := hx.tag hq
    have heq : b' = q := by
      have htake := congrArg (List.takeWhile (· != '>')) hqr
      have hfront {w t : List Char} (hw : '>' ∉ w) : (w ++ '>' :: t).takeWhile (· != '>') = w := by
        rw [List.takeWhile_append_of_pos, List.takeWhile_cons_of_neg (by decide), List.append_nil]
        intro c hc
        rw [bne_iff_ne]
        rintro rfl
        exact hw hc
      rwa [hfront hb', hfront hclose] at htake
    exact hnone (heq ▸ hfeed)

/-! ## Names in front of a closing bracket -/

lemma stopsName_bracket {name : List Char} (hname : '>' ∉ name) (r : List Char) :
    StopsName name ('>' :: r) where
  head := by
    rintro c ⟨⟩
    exact hname
  qualifier := by
    rw [List.dropWhile_cons_of_neg (by decide)]
    exact fun h => by cases h

/-- What is left of a tag behind a name is in front of its closing bracket. -/
lemma not_mem_of_mem_behindName {name q p : List Char} (hq : '>' ∉ q) (hp : p ∈ behindName name q) :
    '>' ∉ p := by
  obtain ⟨qualifier, -, rfl⟩ := eq_of_mem_behindName hp
  exact fun hmem => hq (List.mem_append_right _ (List.mem_append_right _ hmem))

/-! ## End tags -/

/-- Whether a tag is closed does not depend on what follows its bracket. -/
lemma closesTag_bracket (p r : List Char) : closesTag (p ++ '>' :: r) = closesTag (p ++ ['>']) := by
  by_cases hp : IsBlanks p
  · rw [closesTag_append hp, closesTag_append hp]
  · obtain ⟨c, -, hc⟩ := exists_head?_trimStart hp
    rw [closesTag, closesTag, ← trimStart, ← trimStart, hc, hc]

/-- Whether an end tag stands there does not depend on what follows the next bracket. -/
lemma startsWithEndTag_bracket {name : List Char} (hname : '>' ∉ name) (q r : List Char) :
    startsWithEndTag name (q ++ '>' :: r) = startsWithEndTag name (q ++ ['>']) := by
  have hstarts (r : List Char) : startsWithEndTag name (q ++ '>' :: r) =
      (behindPlain? "</".toList q).any fun p =>
        (behindName name p).any fun p => closesTag (p ++ ['>']) := by
    rw [startsWithEndTag_eq, (stopsName_bracket (by decide) r).behindPlain?, Option.any_map]
    simp only [(stopsName_bracket hname r).behindName, List.any_map, Function.comp_def,
      closesTag_bracket _ r]
  rw [hstarts r, hstarts []]

section Joined

variable {s : List Char}

lemma startsWithEndTag_eq_false {c : Char} (hc : c ≠ '<') (name s : List Char) :
    startsWithEndTag name (c :: s) = false := by
  rw [Bool.eq_false_iff]
  intro h
  exact hc (Option.some.inj (head?_of_startsWithEndTag h))

/-- An end tag on one line stays where it is. -/
lemma startsWithEndTag_joinLines (hs : ShowsTags s) (hfeed : s.head? ≠ some '\n')
    {name : List Char} (hname : '>' ∉ name) :
    startsWithEndTag name (joinLines s) = startsWithEndTag name s := by
  cases s with
  | nil => rfl
  | cons c s =>
    have hc : c ≠ '\n' := fun hc => hfeed (congrArg some hc)
    rw [joinLines_cons_of_ne hc]
    by_cases hopen : c = '<'
    · subst hopen
      obtain ⟨q, r, rfl, -, hq, -⟩ := hs.first
      rw [joinLines_tag hq, ← List.cons_append, ← List.cons_append,
        startsWithEndTag_bracket hname, startsWithEndTag_bracket hname _ r]
    · rw [startsWithEndTag_eq_false hopen, startsWithEndTag_eq_false hopen]

lemma closesEmpty_joinLines (hs : ShowsTags s) : closesEmpty (joinLines s) = closesEmpty s := by
  have hfeed : (trimStart s).head? ≠ some '\n' := by
    intro hhead
    cases isBlank_of_mem_head?_trimStart hhead
  rw [closesEmpty, closesEmpty, ← trimStart, ← trimStart, trimStart_joinLines]
  exact startsWithEndTag_joinLines (hs.of_suffix (List.dropWhile_suffix _)) hfeed (by decide)

/-! ## The success mark -/

/-- Whether a mark goes on behind its name depends on its tag and on what follows that. -/
lemma isMarkBehindName_bracket {p r r' : List Char} (hp : '>' ∉ p)
    (h : closesEmpty r = closesEmpty r') :
    isMarkBehindName (p ++ '>' :: r) = isMarkBehindName (p ++ '>' :: r') := by
  cases p with
  | nil => simp [isMarkBehindName, show isBlank '>' = false by decide, h]
  | cons c p =>
    rw [List.mem_cons, not_or] at hp
    rw [List.cons_append, List.cons_append, isMarkBehindName, isMarkBehindName,
      behindBracket?_append_cons hp.2, behindBracket?_append_cons hp.2, Option.any_some,
      Option.any_some, beq_eq_false_iff_ne.2 (Ne.symm hp.1)]
    dsimp only
    rw [h]
    cases p <;> rfl

lemma startsWithMark_bracket {q r r' : List Char} (hq : '>' ∉ q)
    (h : closesEmpty r = closesEmpty r') :
    startsWithMark ('<' :: (q ++ '>' :: r)) = startsWithMark ('<' :: (q ++ '>' :: r')) := by
  rw [startsWithMark, startsWithMark, (stopsName_bracket (by decide) r).behindName,
    (stopsName_bracket (by decide) r').behindName, List.any_map, List.any_map, Bool.eq_iff_iff,
    List.any_eq_true, List.any_eq_true]
  refine exists_congr fun p => and_congr_right fun hp => ?_
  rw [Function.comp_apply, Function.comp_apply,
    isMarkBehindName_bracket (not_mem_of_mem_behindName hq hp) h]

/-- **Without its line feeds a text reports success as before.** -/
theorem reportsSuccess_joinLines (hs : ShowsTags s) :
    reportsSuccess (joinLines s) = reportsSuccess s := by
  induction s with
  | nil => rfl
  | cons c s ih =>
    have ih := ih hs.tail
    by_cases hopen : c = '<'
    · subst hopen
      rw [joinLines_cons_of_ne (by decide), reportsSuccess, reportsSuccess, ih]
      obtain ⟨q, r, rfl, hclose, hq, hr⟩ := hs.first
      rw [joinLines_tag hq, startsWithMark_bracket hclose (closesEmpty_joinLines hr)]
    · have hpass (t : List Char) : reportsSuccess (c :: t) = reportsSuccess t :=
        reportsSuccess_append (w := [c]) (by simpa using Ne.symm hopen) t
      rw [hpass, ← ih]
      by_cases hc : c = '\n'
      · rw [hc, joinLines_lineFeed]
      · rw [joinLines_cons_of_ne hc, hpass]

/-! ## The payload -/

lemma beforeLastEndTag?_joinLines (hs : ShowsTags s) :
    beforeLastEndTag? (joinLines s) = (beforeLastEndTag? s).map joinLines := by
  induction s with
  | nil => rfl
  | cons c s ih =>
    have ih := ih hs.tail
    by_cases hc : c = '\n'
    · rw [hc, joinLines_lineFeed, ih, beforeLastEndTag?,
        startsWithEndTag_eq_false (by decide : '\n' ≠ '<')]
      cases beforeLastEndTag? s <;> rfl
    · have hstarts := startsWithEndTag_joinLines hs (fun h => hc (Option.some.inj h))
        (by decide : '>' ∉ rootName)
      rw [joinLines_cons_of_ne hc] at hstarts ⊢
      rw [beforeLastEndTag?, beforeLastEndTag?, ih, hstarts]
      cases beforeLastEndTag? s with
      | some t => exact congrArg some (joinLines_cons_of_ne hc t).symm
      | none => split_ifs <;> rfl

lemma payloadBehindName?_bracket {p r : List Char} (hp : '>' ∉ p) (hr : ShowsTags r) :
    payloadBehindName? (p ++ '>' :: joinLines r) =
      (payloadBehindName? (p ++ '>' :: r)).map joinLines := by
  have hhead : (p ++ '>' :: joinLines r).head? = (p ++ '>' :: r).head? := by
    cases p <;> rfl
  rw [payloadBehindName?, payloadBehindName?, hhead, behindBracket?_append_cons hp,
    behindBracket?_append_cons hp]
  split_ifs
  · rfl
  · cases p.getLast? == some '/' with
    | true => rfl
    | false => exact beforeLastEndTag?_joinLines hr

lemma rootPayload?_bracket {q r : List Char} (hq : '>' ∉ q) (hr : ShowsTags r) :
    rootPayload? ('<' :: (q ++ '>' :: joinLines r)) =
      (rootPayload? ('<' :: (q ++ '>' :: r))).map joinLines := by
  rw [rootPayload?, rootPayload?, (stopsName_bracket (by decide) r).behindName,
    (stopsName_bracket (by decide) (joinLines r)).behindName, List.findSome?_map,
    List.findSome?_map, List.map_findSome?]
  have hnames : ∀ p ∈ behindName rootName q, '>' ∉ p := fun p => not_mem_of_mem_behindName hq
  generalize behindName rootName q = names at hnames
  induction names with
  | nil => rfl
  | cons p names ih =>
    rw [List.forall_mem_cons] at hnames
    rw [List.findSome?_cons, List.findSome?_cons, ih hnames.2, Function.comp_apply,
      Function.comp_apply, Function.comp_apply, payloadBehindName?_bracket hnames.1 hr]

namespace Search

/-- A bracket with no line feed in front of it is not moved. -/
lemma head?_of_joinLines (hs : ¬ ['\n', '>'] <:+: s) (h : (joinLines s).head? = some '>') :
    s.head? = some '>' := by
  induction s with
  | nil => exact h
  | cons c s ih =>
    by_cases hc : c = '\n'
    · subst hc
      have hhead := ih (fun hfeed => hs (hfeed.trans (List.suffix_cons _ s).isInfix)) h
      obtain ⟨r, rfl⟩ := List.head?_eq_some_iff.1 hhead
      exact absurd ⟨[], r, rfl⟩ hs
    · rwa [joinLines_cons_of_ne hc] at h

/-- Between asides, the search goes on alike if it does on every text that is left. -/
lemma payload?_between_joinLines {c : Char} (hs : ShowsTags (c :: s))
    (hleft : ∀ (search : Search) (rest : List Char), search = .between ∨ search = .inInstruction →
      rest <:+ s → payload? search (joinLines rest) = (payload? search rest).map joinLines) :
    payload? .between (joinLines (c :: s)) = (payload? .between (c :: s)).map joinLines := by
  by_cases hblank : isBlank c = true
  · rw [payload?_blank hblank, ← hleft .between s (Or.inl rfl) List.suffix_rfl]
    by_cases hc : c = '\n'
    · rw [hc, joinLines_lineFeed]
    · rw [joinLines_cons_of_ne hc, payload?_blank hblank]
  · have hc : c ≠ '\n' := by
      rintro rfl
      exact hblank (by decide)
    rw [joinLines_cons_of_ne hc]
    by_cases hopen : c = '<'
    · subst hopen
      obtain ⟨q, r, rfl, hclose, hq, hr⟩ := hs.first
      have hroot (h : ∀ x, entered? (q ++ '>' :: x) = none) :
          payload? .between ('<' :: (q ++ '>' :: joinLines r)) =
            (payload? .between ('<' :: (q ++ '>' :: r))).map joinLines := by
        rw [payload?_of_not_entered (h _), payload?_of_not_entered (h _),
          rootPayload?_bracket hclose hr]
      rw [joinLines_tag hq]
      cases q with
      | nil => exact hroot fun x => entered?_eq_none (by decide) x
      | cons d q =>
        have hbang : d ≠ '!' := by
          rintro rfl
          exact hs.noBang ⟨[], q ++ '>' :: r, rfl⟩
        by_cases hmark : d = '?'
        · subst hmark
          have hinner := hleft .inInstruction (q ++ '>' :: r) (Or.inr rfl) (List.suffix_cons _ _)
          rw [joinLines_tag fun hmem => hq (List.mem_cons_of_mem _ hmem)] at hinner
          exact (payload?_entered rfl).trans (hinner.trans
            (congrArg (Option.map joinLines) (payload?_entered rfl).symm))
        · exact hroot fun x => entered?_eq_none (by simp [hbang, hmark]) _
    · rw [payload?, if_pos rfl, if_neg hblank, if_neg hopen, payload?, if_pos rfl, if_neg hblank,
        if_neg hopen]
      rfl

/-- Inside an instruction, the search goes on alike if it does on every text that is left. -/
lemma payload?_instruction_joinLines {c : Char} (hs : ShowsTags (c :: s))
    (hleft : ∀ (search : Search) (rest : List Char), search = .between ∨ search = .inInstruction →
      rest <:+ s → payload? search (joinLines rest) = (payload? search rest).map joinLines) :
    payload? .inInstruction (joinLines (c :: s)) =
      (payload? .inInstruction (c :: s)).map joinLines := by
  by_cases hclosing : Search.inInstruction.closing <+: c :: s
  · obtain ⟨rest, hrest⟩ : ['?', '>'] <+: c :: s := hclosing
    obtain ⟨rfl, rfl⟩ := List.cons.inj hrest
    have hjoined : joinLines ('?' :: '>' :: rest) =
        Search.inInstruction.closing ++ joinLines rest := by
      rw [joinLines_cons_of_ne (by decide), joinLines_cons_of_ne (by decide)]
      rfl
    have htail := hleft .inInstruction ('>' :: rest) (Or.inr rfl) List.suffix_rfl
    rw [joinLines_cons_of_ne (by decide)] at htail
    have hnext := hleft .between rest (Or.inl rfl) (List.suffix_cons _ rest)
    have hbehind (t : List Char) : payload? .inInstruction (Search.inInstruction.closing ++ t) =
        (payload? .between t).or (payload? .inInstruction ('>' :: t)) :=
      payload?_closing_append Search.noConfusion t
    have hwhole : payload? .inInstruction (Search.inInstruction.closing ++ joinLines rest) =
        (payload? .inInstruction (Search.inInstruction.closing ++ rest)).map joinLines := by
      rw [hbehind, hbehind, hnext, htail, Option.map_or]
    exact (congrArg (payload? .inInstruction) hjoined).trans hwhole
  · rw [payload?_further Search.noConfusion hclosing,
      ← hleft .inInstruction s (Or.inr rfl) List.suffix_rfl]
    by_cases hc : c = '\n'
    · rw [hc, joinLines_lineFeed]
    · rw [joinLines_cons_of_ne hc, payload?_further Search.noConfusion]
      intro hjoined
      obtain ⟨hfirst, r, hr⟩ := List.cons_prefix_cons.1 hjoined
      have hhead := head?_of_joinLines hs.tail.noFeed (by rw [← hr]; rfl)
      obtain ⟨t, rfl⟩ := List.head?_eq_some_iff.1 hhead
      exact hclosing ⟨t, by rw [← hfirst]; rfl⟩

/-- The search finds the same without the line feeds. With no exclamation mark behind a bracket, it
is never inside of anything but an instruction. -/
lemma payload?_joinLines (search : Search) (hsearch : search = .between ∨ search = .inInstruction)
    (hs : ShowsTags s) :
    payload? search (joinLines s) = (payload? search s).map joinLines := by
  -- on the length, as the search may leave several characters behind at once
  induction hn : s.length using Nat.strongRecOn generalizing search s with
  | ind n ih =>
    cases s with
    | nil => rw [joinLines, List.filter_nil, payload?]; rfl
    | cons c s =>
      have hleft : ∀ (search : Search) (rest : List Char),
          search = .between ∨ search = .inInstruction → rest <:+ s →
          payload? search (joinLines rest) = (payload? search rest).map joinLines := by
        intro search rest hsearch hrest
        have hlen : rest.length < n := by
          rw [← hn, List.length_cons]
          exact Nat.lt_succ_of_le hrest.length_le
        exact ih rest.length hlen search hsearch (hs.tail.of_suffix hrest) rfl
      rcases hsearch with rfl | rfl
      · exact payload?_between_joinLines hs hleft
      · exact payload?_instruction_joinLines hs hleft

end Search

/-- **Without its line feeds a text has the payload without its line feeds.** -/
theorem payload_joinLines (hs : ShowsTags s) : payload (joinLines s) = joinLines (payload s) := by
  rw [payload, payload, Search.payload?_joinLines .between (Or.inl rfl) hs]
  cases Search.payload? .between s <;> rfl

end Joined

end Netconf.Reply
