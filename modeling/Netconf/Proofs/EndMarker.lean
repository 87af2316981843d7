import Mathlib.Data.List.Basic
import Netconf.Framing.Frame
import Netconf.Proofs.Blank
import Netconf.Proofs.Xml.Document

/-!
# Documents and the end marker

The marker that ends a message of version 1.0 looks like the end of a character data section. No
document ends like that, not even one whose text stands for units of sixteen bits, so that taking
the marker off leaves every document as it is (`dropEndMarker_of_document`).
-/

namespace Netconf.Xml

open Netconf.Framing Netconf.Text

/-! ## Units of sixteen bits -/

/-- The last units of octets are those of the last octets, whichever octet of a unit comes
first. -/
lemma units_append {units : List UInt8 → List ℕ} {unit : UInt8 → UInt8 → ℕ}
    (hnil : units [] = []) (hcons : ∀ a b bs, units (a :: b :: bs) = unit a b :: units bs)
    (bs : List UInt8) (a b c d : UInt8) (h : bs.length % 2 = 0) :
    units (bs ++ [a, b, c, d]) = units bs ++ [unit a b, unit c d] := by
  -- two octets at a time, as units are put together
  induction bs using unitsHighFirst.induct with
  | case1 x y bs ih =>
    rw [List.length_cons, List.length_cons] at h
    rw [List.cons_append, List.cons_append, hcons, hcons, ih (by omega), List.cons_append]
  | case2 bs hbs =>
    rcases bs with _ | ⟨x, _ | ⟨y, bs⟩⟩
    · rw [List.nil_append, hcons, hcons, hnil, List.nil_append]
    · simp at h
    · exact absurd rfl (hbs x y bs)

/-- A last unit that is no surrogate is the last character, if the one in front of it is none
either. -/
lemma getLast?_charactersOfUnits (us : List ℕ) {u v : ℕ} (hu : u < 0xD800) (hv : v < 0xD800) :
    (charactersOfUnits (us ++ [u, v])).getLast? = some (Char.ofNat v) := by
  have hlast : charactersOfUnits [v] = [Char.ofNat v] := by
    rw [charactersOfUnits, if_neg (by omega)]
  have hpair : charactersOfUnits [u, v] = [Char.ofNat u, Char.ofNat v] := by
    rw [charactersOfUnits, if_neg (by omega), if_neg (by omega), hlast]
  induction hn : us.length using Nat.strongRecOn generalizing us with
  | ind n ih =>
    rcases us with _ | ⟨a, _ | ⟨b, us⟩⟩
    · rw [List.nil_append, hpair]
      rfl
    · rw [List.singleton_append, charactersOfUnits, hlast, hpair]
      split_ifs <;> rfl
    · have hshort := ih us.length (by rw [← hn]; simp only [List.length_cons]; omega) us rfl
      have hlong := ih (b :: us).length (by rw [← hn]; simp only [List.length_cons]; omega) _ rfl
      rw [List.cons_append, List.cons_append, charactersOfUnits]
      rw [List.cons_append] at hlong
      split_ifs
      · rw [List.getLast?_cons, hshort]
        rfl
      · rw [List.getLast?_cons, hlong]
        rfl
      · rw [List.getLast?_cons, hlong]
        rfl

/-! ## The last characters of a document -/

lemma EndsMarkup.getLast? {s : List Char} (h : EndsMarkup s) :
    ∃ c, s.getLast? = some c ∧ (c = '>' ∨ isSpace c = true) := by
  obtain ⟨before, c, w, rfl, -, hw⟩ := h
  rw [List.getLast?_append, List.getLast?_cons_cons, List.getLast?_cons]
  cases hlast : w.getLast? with
  | none => exact ⟨'>', rfl, Or.inl rfl⟩
  | some d => exact ⟨d, rfl, Or.inr (hw d (List.mem_of_getLast? hlast))⟩

lemma not_endsMarkup_append (s : List Char) : ¬ EndsMarkup (s ++ [']', '>']) := by
  rintro ⟨before, c, w, hs, hc, hw⟩
  rcases List.eq_nil_or_concat' w with rfl | ⟨w', d, rfl⟩
  · have := List.append_inj_right' hs rfl
    exact hc (List.cons.inj this).1.symm
  · have hlast := congrArg List.getLast? hs
    rw [← List.cons_append, ← List.cons_append, ← List.append_assoc, List.getLast?_concat,
      List.append_cons s ']', List.getLast?_concat] at hlast
    have hd : '>' = d := Option.some.inj hlast
    have := hw d (List.mem_append_right w' List.mem_cons_self)
    rw [← hd] at this
    cases this

/-- The characters that are read as a document end with markup. -/
lemma endsMarkup_of_ofCharacters {encoding : Encoding} {cs : List Char} {document : Document}
    (h : Document.ofCharacters cs = .ok document) : EndsMarkup cs := by
  have hbody : ∀ {s}, Document.ofBody s = .ok document → EndsMarkup s := by
    intro s hs
    have hdocument : IsDocument (fun _ => True) s document :=
      isDocument_of_ofBody hs fun _ _ => trivial
    exact hdocument.endsMarkup
  cases cs with
  | nil => exact hbody h
  | cons c s =>
    rw [Document.ofCharacters] at h
    split at h
    · exact (hbody h).of_suffix (List.suffix_cons c s)
    · exact hbody h

/-- The octets of the end marker. -/
lemma encode_endOfMessage :
    Utf8.encode endOfMessage = [0x5D, 0x5D, 0x3E, 0x5D, 0x5D, 0x3E] := by decide

/-- Units of octets that end like the end marker make no document: the last character is neither a
bracket nor white space. -/
lemma not_endsMarkup_of_units (units : List UInt8 → List ℕ) (unit : UInt8 → UInt8 → ℕ)
    (hnil : units [] = []) (hcons : ∀ a b bs, units (a :: b :: bs) = unit a b :: units bs)
    (hfirst : unit 0x3E 0x5D < 0xD800) (hlast : unit 0x5D 0x3E < 0xD800)
    (hbracket : Char.ofNat (unit 0x5D 0x3E) ≠ '>')
    (hspace : isSpace (Char.ofNat (unit 0x5D 0x3E)) = false)
    {bs : List UInt8} (heven : bs.length % 2 = 0) :
    ¬ EndsMarkup (charactersOfUnits (units (bs ++ [0x3E, 0x5D, 0x5D, 0x3E]))) := by
  intro hends
  obtain ⟨c, hc, hclass⟩ := hends.getLast?
  rw [units_append hnil hcons bs _ _ _ _ heven, getLast?_charactersOfUnits _ hfirst hlast] at hc
  obtain rfl := Option.some.inj hc
  rcases hclass with heq | heq
  · exact hbracket heq
  · rw [hspace] at heq
    cases heq

lemma not_suffix_of_document {s : List Char} {document : Document}
    (h : Document.ofText (.ofText s) = .ok document) : ¬ endOfMessage <:+ s := by
  rintro ⟨before, rfl⟩
  have hoctets : Utf8.encode (before ++ endOfMessage)
      = (Utf8.encode before ++ [0x5D, 0x5D]) ++ [0x3E, 0x5D, 0x5D, 0x3E] := by
    rw [Utf8.encode_append, encode_endOfMessage, List.append_assoc]
    rfl
  unfold Document.ofText at h
  split at h
  · next document' hcharacters =>
    split at h
    · cases h
    · next hstray =>
      have hends := endsMarkup_of_ofCharacters hcharacters
      unfold DocumentText.ofText at hends hstray
      dsimp only at hends hstray
      -- as units of either order, or as it stands, the marker does not end a document
      split at hends
      · next hzero =>
        rw [if_pos hzero, beq_iff_eq, hoctets] at hstray
        rw [hoctets] at hends
        exact not_endsMarkup_of_units unitsHighFirst (fun a b => a.toNat * 0x100 + b.toNat) rfl
          (fun _ _ _ => rfl) (by decide) (by decide) (by decide) (by decide)
          (by simp at hstray ⊢; omega) hends
      · next hzero =>
        rw [if_neg hzero] at hstray
        split at hends
        · next hzero' =>
          rw [if_pos hzero', beq_iff_eq, hoctets] at hstray
          rw [hoctets] at hends
          exact not_endsMarkup_of_units unitsLowFirst (fun a b => b.toNat * 0x100 + a.toNat) rfl
            (fun _ _ _ => rfl) (by decide) (by decide) (by decide) (by decide)
            (by simp at hstray ⊢; omega) hends
        · have hlast : before ++ endOfMessage = (before ++ "]]>]".toList) ++ [']', '>'] := by
            rw [List.append_assoc]
            rfl
          rw [hlast] at hends
          exact not_endsMarkup_append _ hends
  · split at h <;> cases h

lemma ne_nil_of_document {s : List Char} {document : Document}
    (h : Document.ofText (.ofText s) = .ok document) : s ≠ [] := by
  rintro rfl
  unfold Document.ofText at h
  split at h
  · next document' hcharacters =>
    obtain ⟨c, hc, -⟩ := (endsMarkup_of_ofCharacters hcharacters).getLast?
    cases hc
  · split at h <;> cases h

/-! ## Taking the marker off -/

/-- Only the end of a text is taken off. -/
lemma isPrefix_dropEndMarker (s : List Char) : dropEndMarker s <+: s := by
  unfold dropEndMarker
  dsimp only
  split_ifs
  · exact ((isPrefix_trimEnd _).trans (List.take_prefix _ _)).trans (isPrefix_trimEnd s)
  · exact List.prefix_rfl

/-- A text without the marker stays as it is. -/
lemma dropEndMarker_of_not_suffix {s : List Char} (h : ¬ endOfMessage <:+ trimEnd s) :
    dropEndMarker s = s := by
  unfold dropEndMarker
  dsimp only
  rw [if_neg (by rwa [List.isSuffixOf_iff_suffix])]

/-- Blanks in front of a text hold none of the end marker. -/
lemma suffix_of_suffix_blanks {u s : List Char} (hu : IsBlanks u)
    (h : endOfMessage <:+ u ++ s) : endOfMessage <:+ s := by
  rcases Nat.le_total endOfMessage.length s.length with hlen | hlen
  · exact List.suffix_of_suffix_length_le h (List.suffix_append u s) hlen
  · obtain ⟨w, hw⟩ := List.suffix_of_suffix_length_le (List.suffix_append u s) h hlen
    rcases List.eq_nil_or_concat' w with rfl | ⟨w', c, rfl⟩
    · exact ⟨[], by rw [← hw]; rfl⟩
    · obtain ⟨before, hbefore⟩ := h
      -- a last character in front of `s` would be blank and belong to the marker
      have hmem : c ∈ endOfMessage := by
        rw [← hw]
        simp
      have heq : before ++ (w' ++ [c]) = u := by
        rw [← hw, ← List.append_assoc] at hbefore
        exact List.append_cancel_right hbefore
      have hblank := hu c (by rw [← heq]; simp)
      have hnone : endOfMessage.any isBlank = false := by decide
      exact absurd hblank (List.any_eq_false.1 hnone c hmem)

/-- **No document loses its end.** Where a text without its outer blanks is a document, it stays as
it is when the end marker is taken off. -/
theorem dropEndMarker_of_document {s : List Char} {document : Document}
    (h : Document.ofText (.ofText (trim s)) = .ok document) : dropEndMarker s = s := by
  have hmarker := not_suffix_of_document h
  apply dropEndMarker_of_not_suffix
  intro hsuffix
  obtain ⟨u, hu, htrim⟩ := trimEnd_eq_append_trim (ne_nil_of_document h)
  rw [htrim] at hsuffix
  exact hmarker (suffix_of_suffix_blanks hu hsuffix)

end Netconf.Xml
