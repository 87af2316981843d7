import Netconf.Proofs.Blank
import Netconf.Proofs.Xml.Written
import Netconf.Reply.TagText
import Netconf.Xml.Scope

/-!
# Tags of documents in plain text

Where a tag stands in a document, plain text shows the same tag, if its qualifier is made of the
characters that are looked for. The name is found (`behindName_of_isPlainly`) and no other name is
taken for it (`any_behindName`); the closing bracket is found if no bracket stands in a value
(`behindBracket?_append`).
-/

namespace Netconf.Reply

open Netconf.Text Netconf.Xml

/-! ## Names -/

/-- Whether a written name has no qualifier, or one that plain text shows: a word with dots and
hyphens. -/
def hasPlainQualifier (written : List Char) : Bool :=
  (splitQName written).1.all fun q => q.all isQualifierChar

/-- Whether a written name is the given local name, and plain text shows its qualifier. -/
def isPlainly (name written : List Char) : Bool :=
  (splitQName written).2 == name && hasPlainQualifier written

lemma isPlainly_iff {name written : List Char} :
    isPlainly name written = true ↔
      (splitQName written).2 = name ∧ hasPlainQualifier written = true := by
  rw [isPlainly, Bool.and_eq_true, beq_iff_eq]

/-- What may follow the name in a tag. -/
def EndsTagName (tail : List Char) : Prop :=
  ∀ c ∈ tail.head?, isSpace c = true ∨ c = '/' ∨ c = '>'

lemma EndsTagName.not_nameChar {tail : List Char} (h : EndsTagName tail) :
    ∀ c ∈ tail.head?, isNameChar c = false := by
  intro c hc
  rcases h c hc with hc | rfl | rfl
  · exact isNameChar_of_isBlank (isBlank_of_isSpace hc)
  · decide
  · decide

lemma EndsTagName.not_qualifier {tail : List Char} (h : EndsTagName tail) :
    ∀ c ∈ tail.head?, isQualifierChar c = false ∧ c ≠ ':' := by
  intro c hc
  rcases h c hc with hc | rfl | rfl
  · rcases isSpace_iff.1 hc with rfl | rfl | rfl | rfl <;> decide
  · decide
  · decide

/-- Attributes and the end of a start tag do not go on like a name. -/
lemma endsTagName_attributes {as : List RawAttribute} {w rest : List Char} {e : Bool}
    (hw : IsAttributeText as w) : EndsTagName (w ++ (tagEnd e ++ rest)) := by
  intro c hc
  cases w with
  | nil =>
    cases e with
    | true =>
      cases hc
      exact Or.inr (Or.inl rfl)
    | false =>
      cases hc
      exact Or.inr (Or.inr rfl)
  | cons d w =>
    cases hc
    exact Or.inl (hw.starts c rfl)

/-- A name without a colon has no qualifier, any other is split at its first colon. -/
lemma splitQName_cases {n : List Char} (hn : IsTagName n) :
    (':' ∉ n ∧ splitQName n = (none, n)) ∨
      ∃ q b, n = q ++ ':' :: b ∧ q ≠ [] ∧ ':' ∉ q ∧ splitQName n = (some q, b) := by
  have happend : n.takeWhile (· != ':') ++ n.dropWhile (· != ':') = n :=
    List.takeWhile_append_dropWhile
  have hcolon : ':' ∉ n.takeWhile (· != ':') := by
    intro hmem
    simpa using List.mem_takeWhile_imp hmem
  unfold splitQName
  split
  · next c b hdrop =>
    have hc := List.head?_dropWhile_not (· != ':') n
    rw [hdrop] at hc
    have hc : c = ':' := by simpa using hc
    rw [hdrop, hc] at happend
    refine Or.inr ⟨_, b, happend.symm, ?_, hcolon, rfl⟩
    intro hnil
    -- the first character of a name is no colon
    obtain ⟨d, s, rfl, hd, -⟩ := hn
    rw [hnil] at happend
    obtain ⟨rfl, -⟩ := List.cons.inj happend
    cases hd
  · next hdrop =>
    rw [hdrop, List.append_nil] at happend
    rw [happend] at hcolon
    exact Or.inl ⟨hcolon, rfl⟩

lemma behindPlain?_self (name tail : List Char) : behindPlain? name (name ++ tail) = some tail := by
  rw [behindPlain?, if_pos (List.isPrefixOf_iff_prefix.2 (List.prefix_append name tail)),
    List.drop_left]

/-- A name that is found is the whole written name, or the written name goes on behind it. -/
lemma behindPlain?_cases {name b tail r : List Char} (hname : ∀ c ∈ name, isNameChar c = true)
    (hb : ∀ c ∈ b, isQNameChar c = true) (htail : ∀ c ∈ tail.head?, isNameChar c = false)
    (h : behindPlain? name (b ++ tail) = some r) :
    (b = name ∧ r = tail) ∨ ∃ c s, r = c :: s ∧ isQNameChar c = true := by
  unfold behindPlain? at h
  split at h
  · next hprefix =>
    have hprefix := List.isPrefixOf_iff_prefix.1 hprefix
    cases h
    -- one of both names begins with the other
    rcases Nat.le_total name.length b.length with hlen | hlen
    · obtain ⟨x, rfl⟩ := List.prefix_of_prefix_length_le hprefix (List.prefix_append b tail) hlen
      rw [List.append_assoc, List.drop_left]
      cases x with
      | nil => exact Or.inl ⟨List.append_nil name, rfl⟩
      | cons c x => exact Or.inr ⟨c, x ++ tail, rfl, hb c (by simp)⟩
    · obtain ⟨x, rfl⟩ := List.prefix_of_prefix_length_le (List.prefix_append b tail) hprefix hlen
      cases x with
      | nil =>
        rw [List.append_nil, List.drop_left]
        exact Or.inl ⟨rfl, rfl⟩
      | cons c x =>
        -- the name would go on with what ends the written one
        rw [List.prefix_append_right_inj] at hprefix
        obtain ⟨y, rfl⟩ := hprefix
        have hc := hname c (by simp)
        rw [htail c (by simp)] at hc
        cases hc
  · cases h

/-- A qualifier is found where a word stands in front of a colon. -/
lemma behindQualified?_of_colon {name q rest : List Char} (hne : q ≠ [])
    (hq : q.all isQualifierChar = true) :
    behindQualified? name (q ++ ':' :: rest) = behindPlain? name rest := by
  have hq : ∀ c ∈ q, isQualifierChar c = true := by simpa using hq
  have htake : (q ++ ':' :: rest).takeWhile isQualifierChar = q := by
    rw [List.takeWhile_append_of_pos hq, List.takeWhile_cons_of_neg (by decide), List.append_nil]
  have hdrop : (q ++ ':' :: rest).dropWhile isQualifierChar = ':' :: rest := by
    rw [List.dropWhile_append_of_pos hq, List.dropWhile_cons_of_neg (by decide)]
  obtain ⟨c, q, rfl⟩ := List.exists_cons_of_ne_nil hne
  rw [behindQualified?, htake, hdrop]
  rfl

/-- No qualifier is found where something else ends the word. -/
lemma behindQualified?_eq_none {name s : List Char}
    (h : (s.dropWhile isQualifierChar).head? ≠ some ':') : behindQualified? name s = none := by
  unfold behindQualified?
  split
  · next hdrop =>
    rw [hdrop] at h
    exact absurd rfl h
  · rfl

/-- In front of the first colon the word ends at a character of its own. -/
lemma head?_dropWhile_ne_colon {b tail : List Char} (hcolon : ':' ∉ b)
    (htail : b.all isQualifierChar = false ∨
      ∀ c ∈ tail.head?, isQualifierChar c = false ∧ c ≠ ':') :
    ((b ++ tail).dropWhile isQualifierChar).head? ≠ some ':' := by
  induction b with
  | nil =>
    cases tail with
    | nil => simp
    | cons c tail =>
      have hc := (htail.resolve_left (by simp)) c rfl
      rw [List.nil_append, List.dropWhile_cons_of_neg (by simp [hc.1])]
      simpa using hc.2
  | cons d b ih =>
    rw [List.mem_cons, not_or] at hcolon
    -- the word may end inside the name, or go on to what follows it
    by_cases hd : isQualifierChar d = true
    · rw [List.cons_append, List.dropWhile_cons_of_pos hd]
      refine ih hcolon.2 (htail.imp_left ?_)
      intro hall
      rwa [List.all_cons, hd, Bool.true_and] at hall
    · rw [List.cons_append, List.dropWhile_cons_of_neg hd]
      simpa using fun heq => hcolon.1 heq.symm

/-! ## Names with more text behind them -/

section Stops

variable {name v : List Char}

/-- Whether a text continues neither a name in front of it nor its qualifier. -/
structure StopsName (name v : List Char) : Prop where
  head : ∀ c ∈ v.head?, c ∉ name
  qualifier : (v.dropWhile isQualifierChar).head? ≠ some ':'

lemma behindPlain?_eq_none {s : List Char} (h : ∀ r, s ≠ name ++ r) :
    behindPlain? name s = none := by
  rw [behindPlain?, if_neg]
  intro happend
  obtain ⟨r, rfl⟩ := List.isPrefixOf_iff_prefix.1 happend
  exact h r rfl

lemma StopsName.behindPlain? (hv : StopsName name v) (s : List Char) :
    behindPlain? name (s ++ v) = (behindPlain? name s).map (· ++ v) := by
  by_cases h : name <+: s
  · obtain ⟨r, rfl⟩ := h
    rw [List.append_assoc, behindPlain?_self, behindPlain?_self]
    rfl
  · have hbehind : ¬ name <+: s ++ v := by rwa [isPrefix_append_iff hv.head]
    rw [behindPlain?_eq_none fun r hr => hbehind ⟨r, hr.symm⟩,
      behindPlain?_eq_none fun r hr => h ⟨r, hr.symm⟩]
    rfl

lemma StopsName.behindQualified? (hv : StopsName name v) (s : List Char) :
    behindQualified? name (s ++ v) = (behindQualified? name s).map (· ++ v) := by
  have happend : s.takeWhile isQualifierChar ++ s.dropWhile isQualifierChar = s :=
    List.takeWhile_append_dropWhile
  by_cases hcolon : (s.dropWhile isQualifierChar).head? = some ':'
  · obtain ⟨rest, hrest⟩ := List.head?_eq_some_iff.1 hcolon
    by_cases hq : s.takeWhile isQualifierChar = []
    · -- no word stands in front of the colon, whatever stands behind
      rw [hq, hrest, List.nil_append] at happend
      rw [← happend]
      rfl
    · have hall : (s.takeWhile isQualifierChar).all isQualifierChar = true := by
        rw [List.all_eq_true]
        intro c hc
        exact List.mem_takeWhile_imp hc
      rw [hrest] at happend
      rw [← happend, List.append_assoc, List.cons_append, behindQualified?_of_colon hq hall,
        behindQualified?_of_colon hq hall, hv.behindPlain?]
  · have hbehind : ((s ++ v).dropWhile isQualifierChar).head? ≠ some ':' := by
      rw [List.dropWhile_append]
      split_ifs with hs
      · exact hv.qualifier
      · rwa [List.head?_append, Option.or_of_isSome (by simpa using hs)]
    rw [behindQualified?_eq_none hbehind, behindQualified?_eq_none hcolon]
    rfl

/-- Names are looked for alike with such a text behind. -/
lemma StopsName.behindName (hv : StopsName name v) (s : List Char) :
    behindName name (s ++ v) = (behindName name s).map (· ++ v) := by
  unfold Reply.behindName
  rw [hv.behindQualified?, hv.behindPlain?, Option.toList_map, Option.toList_map,
    ← List.map_append]

end Stops

section Behind

variable {name n tail : List Char}

/-- A name that plain text shows is what is found first. -/
lemma behindName_of_isPlainly (hn : IsTagName n) (h : isPlainly name n = true)
    (htail : EndsTagName tail) : ∃ more, behindName name (n ++ tail) = tail :: more := by
  rw [isPlainly_iff] at h
  obtain ⟨hbase, hq⟩ := h
  rcases splitQName_cases hn with ⟨hcolon, hsplit⟩ | ⟨q, b, rfl, hne, hcolon, hsplit⟩
  · rw [hsplit] at hbase
    dsimp only at hbase
    subst hbase
    have hnone : behindQualified? n (n ++ tail) = none :=
      behindQualified?_eq_none (head?_dropWhile_ne_colon hcolon (Or.inr htail.not_qualifier))
    exact ⟨[], by rw [behindName, hnone, behindPlain?_self]; rfl⟩
  · rw [hasPlainQualifier, hsplit] at hq
    rw [hsplit] at hbase
    dsimp only at hbase
    subst hbase
    refine ⟨(behindPlain? b ((q ++ ':' :: b) ++ tail)).toList, ?_⟩
    rw [behindName, List.append_assoc, List.cons_append, behindQualified?_of_colon hne hq,
      behindPlain?_self]
    rfl

/-- What is found behind a name: what ends the written name if plain text shows it, else a rest of
the written name. -/
lemma behindName_cases {r : List Char} (hname : ∀ c ∈ name, isNameChar c = true)
    (hn : IsTagName n) (htail : EndsTagName tail) (h : r ∈ behindName name (n ++ tail)) :
    (isPlainly name n = true ∧ r = tail) ∨ ∃ c s, r = c :: s ∧ isQNameChar c = true := by
  have hchars := hn.isQNameChar
  rw [behindName, List.mem_append, Option.mem_toList, Option.mem_toList] at h
  rcases splitQName_cases hn with ⟨hcolon, hsplit⟩ | ⟨q, b, rfl, hne, hcolon, hsplit⟩
  · rcases h with h | h
    · rw [behindQualified?_eq_none
        (head?_dropWhile_ne_colon hcolon (Or.inr htail.not_qualifier))] at h
      cases h
    · rcases behindPlain?_cases hname hchars htail.not_nameChar h with ⟨rfl, rfl⟩ | hmore
      · exact Or.inl ⟨by simp [isPlainly_iff, hasPlainQualifier, hsplit], rfl⟩
      · exact Or.inr hmore
  · rw [List.append_assoc, List.cons_append] at h
    rcases h with h | h
    · by_cases hq : q.all isQualifierChar = true
      · rw [behindQualified?_of_colon hne hq] at h
        rcases behindPlain?_cases hname (fun c hc => hchars c (by simp [hc])) htail.not_nameChar h
          with ⟨rfl, rfl⟩ | hmore
        · exact Or.inl ⟨by simp [isPlainly_iff, hasPlainQualifier, hsplit, hq], rfl⟩
        · exact Or.inr hmore
      · rw [behindQualified?_eq_none
          (head?_dropWhile_ne_colon hcolon (Or.inl (Bool.eq_false_iff.2 hq)))] at h
        cases h
    · -- without the qualifier, a colon follows the name
      have hcolon' : ∀ c, (':' :: (b ++ tail)).head? = some c → isNameChar c = false := by
        intro c hc
        cases hc
        decide
      rcases behindPlain?_cases hname (fun c hc => hchars c (by simp [hc])) hcolon' h
        with ⟨-, rfl⟩ | hmore
      · exact Or.inr ⟨':', b ++ tail, rfl, by decide⟩
      · exact Or.inr hmore

/-- A question about what follows a name in a tag is answered where plain text shows the name, if
the answer is no inside of names. -/
lemma any_behindName {f : List Char → Bool} (hname : ∀ c ∈ name, isNameChar c = true)
    (hn : IsTagName n) (htail : EndsTagName tail)
    (hf : ∀ c s, isQNameChar c = true → f (c :: s) = false) :
    (behindName name (n ++ tail)).any f = (isPlainly name n && f tail) := by
  rw [Bool.eq_iff_iff, List.any_eq_true, Bool.and_eq_true]
  constructor
  · rintro ⟨r, hr, hfr⟩
    rcases behindName_cases hname hn htail hr with ⟨hplain, rfl⟩ | ⟨c, s, rfl, hc⟩
    · exact ⟨hplain, hfr⟩
    · rw [hf c s hc] at hfr
      cases hfr
  · rintro ⟨hplain, hftail⟩
    obtain ⟨more, hmore⟩ := behindName_of_isPlainly hn hplain htail
    exact ⟨tail, by rw [hmore]; exact List.mem_cons_self, hftail⟩

end Behind

/-! ## Closing brackets -/

lemma behindBracket?_of_not_mem {s : List Char} (h : '>' ∉ s) : behindBracket? s = none := by
  have hs : s.dropWhile (· != '>') = [] := by
    rw [List.dropWhile_eq_nil_iff]
    intro c hc
    rw [bne_iff_ne]
    rintro rfl
    exact h hc
  rw [behindBracket?, hs]

/-- Text without the character that something ends with does not complete it. -/
lemma infix_of_not_mem {m s v : List Char} {c : Char} (hm : m.getLast? = some c) (hc : c ∉ v)
    (h : m <:+: s ++ v) : m <:+: s := by
  obtain ⟨m, rfl⟩ := List.getLast?_eq_some_iff.1 hm
  obtain ⟨a, b, hab⟩ := h
  have hab : (a ++ m) ++ c :: b = s ++ v := by
    rw [← hab]
    simp
  rcases List.append_eq_append_iff.1 hab with ⟨x, rfl, hx⟩ | ⟨x, -, rfl⟩
  · cases x with
    | nil =>
      rw [List.nil_append] at hx
      exact absurd (hx ▸ List.mem_cons_self) hc
    | cons d x =>
      obtain ⟨rfl, -⟩ := List.cons.inj hx
      exact ⟨a, x, by simp⟩
  · exact absurd (List.mem_append_right x List.mem_cons_self) hc

/-- The first closing bracket is found, and what stands in front of it. -/
lemma behindBracket?_append_cons {a : List Char} (h : '>' ∉ a) (rest : List Char) :
    behindBracket? (a ++ '>' :: rest) = some (a.getLast? == some '/', rest) := by
  have ha : ∀ c ∈ a, (c != '>') = true := by
    intro c hc
    rw [bne_iff_ne]
    rintro rfl
    exact h hc
  rw [behindBracket?, List.dropWhile_append_of_pos ha, List.takeWhile_append_of_pos ha,
    List.dropWhile_cons_of_neg (by decide), List.takeWhile_cons_of_neg (by decide),
    List.append_nil]

/-- The closing bracket of a tag is found behind text without one, and the slash in front of it. -/
lemma behindBracket?_append {w rest : List Char} {isEmpty : Bool} (hgt : '>' ∉ w)
    (hslash : w.getLast? ≠ some '/') :
    behindBracket? (w ++ (tagEnd isEmpty ++ rest)) = some (isEmpty, rest) := by
  cases isEmpty with
  | false =>
    show behindBracket? (w ++ '>' :: rest) = _
    rw [behindBracket?_append_cons hgt, beq_eq_false_iff_ne.2 hslash]
  | true =>
    have hgt : '>' ∉ w ++ ['/'] := by simp [hgt]
    show behindBracket? (w ++ '/' :: '>' :: rest) = _
    rw [List.append_cons, behindBracket?_append_cons hgt, List.getLast?_concat]
    rfl

/-! ## End tags -/

/-- A qualifier with its colon as plain text shows it, or none. -/
def IsQualifier (s : List Char) : Prop :=
  s = [] ∨ ∃ q, q ≠ [] ∧ q.all isQualifierChar = true ∧ s = q ++ [':']

/-- An end tag of a name as plain text shows it, with blanks behind the name. -/
def IsEndTag (name m : List Char) : Prop :=
  ∃ qualifier w, IsQualifier qualifier ∧ IsBlanks w ∧
    m = '<' :: '/' :: (qualifier ++ (name ++ (w ++ ['>'])))

lemma IsEndTag.getLast? {name m : List Char} (h : IsEndTag name m) : m.getLast? = some '>' := by
  obtain ⟨qualifier, w, -, -, rfl⟩ := h
  exact List.getLast?_eq_some_iff.2 ⟨'<' :: '/' :: (qualifier ++ (name ++ w)), by simp⟩

lemma eq_of_behindPlain? {name s r : List Char} (h : behindPlain? name s = some r) :
    s = name ++ r := by
  unfold behindPlain? at h
  split at h
  · next hprefix =>
    obtain ⟨t, rfl⟩ := List.isPrefixOf_iff_prefix.1 hprefix
    cases h
    rw [List.drop_left]
  · cases h

lemma eq_of_mem_behindName {name s r : List Char} (h : r ∈ behindName name s) :
    ∃ qualifier, IsQualifier qualifier ∧ s = qualifier ++ (name ++ r) := by
  rw [behindName, List.mem_append, Option.mem_toList, Option.mem_toList] at h
  rcases h with h | h
  · unfold behindQualified? at h
    split at h
    · next c q rest htake hdrop =>
      have happend : s.takeWhile isQualifierChar ++ s.dropWhile isQualifierChar = s :=
        List.takeWhile_append_dropWhile
      rw [htake, hdrop] at happend
      refine ⟨(c :: q) ++ [':'], Or.inr ⟨c :: q, List.cons_ne_nil c q, ?_, rfl⟩, ?_⟩
      · rw [← htake, List.all_eq_true]
        intro d hd
        exact List.mem_takeWhile_imp hd
      · rw [← happend, eq_of_behindPlain? h, List.append_assoc, List.singleton_append]
    · cases h
  · exact ⟨[], Or.inl rfl, by rw [eq_of_behindPlain? h]; rfl⟩

lemma mem_behindName {qualifier : List Char} (h : IsQualifier qualifier) (name r : List Char) :
    r ∈ behindName name (qualifier ++ (name ++ r)) := by
  rw [behindName, List.mem_append, Option.mem_toList, Option.mem_toList]
  rcases h with rfl | ⟨q, hne, hq, rfl⟩
  · exact Or.inr (behindPlain?_self name r)
  · rw [List.append_assoc, List.singleton_append, behindQualified?_of_colon hne hq]
    exact Or.inl (behindPlain?_self name r)

/-- Where an end tag is found, one stands. -/
lemma exists_of_startsWithEndTag {name s : List Char} (h : startsWithEndTag name s = true) :
    ∃ m, IsEndTag name m ∧ m <+: s := by
  unfold startsWithEndTag at h
  split at h
  · next s =>
    obtain ⟨r, hr, hcloses⟩ := List.any_eq_true.1 h
    obtain ⟨qualifier, hqualifier, rfl⟩ := eq_of_mem_behindName hr
    rw [closesTag, beq_iff_eq] at hcloses
    obtain ⟨rest, hrest⟩ := List.head?_eq_some_iff.1 hcloses
    have happend : r.takeWhile isBlank ++ '>' :: rest = r := by
      rw [← hrest, List.takeWhile_append_dropWhile]
    refine ⟨_, ⟨qualifier, r.takeWhile isBlank, hqualifier,
      fun c hc => List.mem_takeWhile_imp hc, rfl⟩, rest, ?_⟩
    rw [← happend]
    simp only [List.cons_append, List.append_assoc, List.nil_append, happend]
  · cases h

lemma head?_of_startsWithEndTag {name s : List Char} (h : startsWithEndTag name s = true) :
    s.head? = some '<' := by
  unfold startsWithEndTag at h
  split at h
  · rfl
  · cases h

lemma closesTag_append {w : List Char} (hw : IsBlanks w) (rest : List Char) :
    closesTag (w ++ '>' :: rest) = true := by
  rw [closesTag, List.dropWhile_append_of_pos hw, List.dropWhile_cons_of_neg (by decide)]
  rfl

/-- An end tag is found where one stands. -/
lemma IsEndTag.startsWithEndTag {name m : List Char} (h : IsEndTag name m) (rest : List Char) :
    startsWithEndTag name (m ++ rest) = true := by
  obtain ⟨qualifier, w, hqualifier, hw, rfl⟩ := h
  have happend : ('<' :: '/' :: (qualifier ++ (name ++ (w ++ ['>'])))) ++ rest
      = '<' :: '/' :: (qualifier ++ (name ++ (w ++ '>' :: rest))) := by simp
  rw [happend, Reply.startsWithEndTag, List.any_eq_true]
  exact ⟨w ++ '>' :: rest, mem_behindName hqualifier name _, closesTag_append hw rest⟩

lemma not_isBlank_of_isQNameChar {c : Char} (h : isQNameChar c = true) : isBlank c = false := by
  rw [Bool.eq_false_iff]
  intro hc
  rw [isQNameChar, isNameChar_of_isBlank hc, Bool.false_or, beq_iff_eq] at h
  rw [h] at hc
  cases hc

lemma not_closesTag_of_isQNameChar {c : Char} {s : List Char} (h : isQNameChar c = true) :
    closesTag (c :: s) = false := by
  rw [closesTag, List.dropWhile_cons_of_neg (by rw [not_isBlank_of_isQNameChar h]; decide)]
  simpa using ne_of_class h (by decide : isQNameChar '>' = false)

/-- A written end tag is found if plain text shows its name. -/
lemma startsWithEndTag_append {name n w : List Char} (hname : ∀ c ∈ name, isNameChar c = true)
    (hn : IsTagName n) (hw : IsSpaces w) (rest : List Char) :
    startsWithEndTag name ('<' :: '/' :: (n ++ (w ++ '>' :: rest))) = isPlainly name n := by
  have htail : EndsTagName (w ++ '>' :: rest) := by
    intro c hc
    cases w with
    | nil =>
      cases hc
      exact Or.inr (Or.inr rfl)
    | cons d w =>
      cases hc
      exact Or.inl (hw c List.mem_cons_self)
  rw [startsWithEndTag, any_behindName hname hn htail fun c s => not_closesTag_of_isQNameChar,
    closesTag_append fun c hc => isBlank_of_isSpace (hw c hc), Bool.and_true]

end Netconf.Reply
