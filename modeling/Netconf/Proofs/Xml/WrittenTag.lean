import Netconf.Proofs.Xml.Grammar

/-!
# Start tags that are put together

From a name and attributes to a start tag with a meaning (`isTag_of_attributes`): each attribute is
written with a space in front of it and its value between double quotes. How a value is written
there is left open (`IsValue`); what the attributes mean together is `TagReading.addAll`.
-/

namespace Netconf.Xml

open Netconf.Outcome

/-! ## Values -/

/-- Whether a text between double quotes is a value. -/
def IsValue (w v : List Char) : Prop :=
  ∃ parts, Takes (scanValue '\x22') (List.map ValuePart.unplaced) (w ++ ['\x22']) parts ∧
    ∀ (d : Dtd) opened, partsValue (d.readEntity opened) (unifyValueLineEnds parts) = .ok v

lemma isValue_nil : IsValue [] [] := ⟨[], takes_scanValue_nil '\x22', fun _ _ => rfl⟩

/-- A character of a value that stands for itself. -/
lemma IsValue.char {c : Char} {w v : List Char} (h : IsValue w v)
    (hc : c ∉ ['\x22', '&', '<', '\t', '\n', '\r']) (hxml : isXmlChar c = true) :
    IsValue (c :: w) (c :: v) := by
  obtain ⟨parts, hparts, hv⟩ := h
  simp only [List.mem_cons, List.not_mem_nil, or_false, not_or] at hc
  obtain ⟨hquote, hamp, hlt, htab, hfeed, hreturn⟩ := hc
  refine ⟨.char c :: parts, ?_, ?_⟩
  · exact takes_scanValue_cons (w := [c]) (takes_char hamp ⟨hlt, hxml⟩)
      (fun heq => hquote (Option.some.inj heq)) hparts
  · intro d opened
    have hspace : (if isSpace c then ' ' else c) = c := by
      split
      · next hc =>
        rcases isSpace_iff.1 hc with h | h | h | h
        · exact h.symm
        · exact absurd h htab
        · exact absurd h hfeed
        · exact absurd h hreturn
      · rfl
    rw [unifyValueLineEnds.eq_2 _ _ (fun s heq _ => hreturn (by cases heq; rfl)), partsValue, hv,
      hspace]
    rfl

/-- A reference in a value. -/
lemma IsValue.reference {c : Char} {r : Reference} {w v u : List Char} (h : IsValue w v)
    (hr : r.char? = some c) (hu : Takes Reference.scan id u r) :
    IsValue ('&' :: u ++ w) (c :: v) := by
  obtain ⟨parts, hparts, hv⟩ := h
  refine ⟨.reference r [] :: parts, ?_, ?_⟩
  · rw [List.append_assoc]
    exact takes_scanValue_cons (takes_reference hu)
      (fun heq => absurd (Option.some.inj heq) (by decide)) hparts
  · intro d opened
    rw [unifyValueLineEnds.eq_2 _ _ fun s heq _ => by cases heq]
    cases r with
    | character n =>
      change charOfNumber? n = some c at hr
      simp only [partsValue, hr, hv]
      rfl
    | entity name =>
      change predefined? name = some c at hr
      have hread : d.readEntity opened name [] = .ok [c] := by
        rw [Dtd.readEntity, Dtd.entityValue.eq_def]
        dsimp only
        rw [hr]
      rw [partsValue, hread, ok_bind, hv]
      rfl

/-! ## Names -/

section Names

variable [Encoding]

lemma IsName.not_mem_colon {n : List Char} (h : IsName n) : ':' ∉ n :=
  fun hmem => ne_of_class (h.isNameChar ':' hmem) rfl rfl

lemma IsName.ne_colon {n : List Char} (h : IsName n) : ∀ c ∈ n, (c != ':') = true := by
  intro c hc
  rw [bne_iff_ne]
  rintro rfl
  exact h.not_mem_colon hc

/-- A name without a colon has no qualifier. -/
lemma splitQName_of_isName {n : List Char} (h : IsName n) : splitQName n = (none, n) := by
  have hdrop : n.dropWhile (· != ':') = [] := List.dropWhile_eq_nil_iff.2 h.ne_colon
  rw [splitQName, hdrop]

/-- A qualified name is split at its colon. -/
lemma splitQName_qualified {q : List Char} (hq : IsName q) (b : List Char) :
    splitQName (q ++ ':' :: b) = (some q, b) := by
  have hstop : ∀ c ∈ (':' :: b).head?, (c != ':') = false := by
    rintro c ⟨⟩
    rfl
  rw [splitQName, List.dropWhile_append_of_pos hq.ne_colon, (span_of_head hstop).2,
    List.takeWhile_append_of_pos hq.ne_colon, (span_of_head hstop).1, List.append_nil]

end Names

/-! ## Attributes -/

/-- An attribute as it is put together: its name, and how its value is written. -/
def attributeText (name w : List Char) : List Char :=
  ' ' :: name ++ "=\"".toList ++ w ++ "\"".toList

/-- Takes attributes up in order, no name twice. -/
def TagReading.addAll : TagReading → List (List Char × List Char) → Except Problem TagReading
  | r, [] => .ok r
  | r, a :: as =>
    if r.seen.contains a.1 then .error .duplicateAttribute
    else do
      let r ← r.add a.1 a.2
      r.addAll as

/-- An attribute in a start tag: its name, how its value is written, and its value. -/
structure WrittenAttribute where
  name : List Char
  text : List Char
  value : List Char

/-- Whether the name is one and the text is that of the value. -/
structure WrittenAttribute.IsWritten (a : WrittenAttribute) : Prop where
  name : IsQName a.name
  value : IsValue a.text a.value

variable {b : Bool}

/-- Attributes that are put together are read, up to the end of the tag, as what they mean. -/
lemma exists_of_attributes {as : List WrittenAttribute} (has : ∀ a ∈ as, a.IsWritten)
    {sp : List Char} (hsp : IsSpaces sp) (e : Bool) :
    ∃ raw, Takes scanAttributes unplacedAttributes
        (as.flatMap (fun a => attributeText a.name a.text) ++ (sp ++ tagEnd e)) (raw, e) ∧
      ∀ {r r' : TagReading} {element place : List Char},
        r.addAll (as.map fun a => (a.name, a.value)) = .ok r' →
        TagReading.addWritten (Dtd.empty b) .document [] element place r raw = .ok r' := by
  induction as with
  | nil =>
    refine ⟨[], takes_scanAttributes_nil e hsp, fun h => ?_⟩
    cases h
    rw [TagReading.addWritten]
  | cons a as ih =>
    obtain ⟨raw, hraw, hmeaning⟩ := ih fun a' ha' => has a' (List.mem_cons_of_mem a ha')
    obtain ⟨hname, parts, hparts, hvalue⟩ := has a List.mem_cons_self
    refine ⟨⟨a.name, parts, []⟩ :: raw, ?_, ?_⟩
    · have hattribute := takes_scanAttribute hname isSpaces_nil isSpaces_nil (Or.inl rfl) hparts
      have hspace : IsSpaces [' '] := fun c hc => by rw [List.mem_singleton.1 hc]; rfl
      have := takes_scanAttributes_cons hspace hattribute hraw
      simpa [attributeText] using this
    · intro r r' element place h
      rw [List.map_cons, TagReading.addAll] at h
      split at h
      · cases h
      · next hseen =>
        obtain ⟨r₁, hr₁, htail⟩ := bind_eq_ok_iff.1 h
        rw [TagReading.addWritten, if_neg hseen]
        rw [show Origin.document.value parts = unifyValueLineEnds parts from rfl,
          mapError_eq_ok_iff.2 (hvalue (Dtd.empty b) []), ok_bind]
        -- no attribute is declared, so the value stays as it is
        change ((r.add a.name a.value).mapError _ >>= _) = _
        rw [mapError_eq_ok_iff.2 hr₁, ok_bind]
        exact hmeaning htail

/-- **A start tag that is put together means what its attributes mean together.** -/
theorem isTag_of_attributes {σ σ' : Scope} {name sp : List Char} {as : List WrittenAttribute}
    {r : TagReading} {tag : Tag} (hname : IsQName name) (has : ∀ a ∈ as, a.IsWritten)
    (hsp : IsSpaces sp) (e : Bool)
    (hr : TagReading.addAll ⟨[], [], σ⟩ (as.map fun a => (a.name, a.value)) = .ok r)
    (hfinish : r.finish (Dtd.empty b) name = .ok (tag, σ')) :
    ∃ raw, IsTag (Dtd.empty b) σ
      ('<' :: (name ++ (as.flatMap (fun a => attributeText a.name a.text) ++ (sp ++ tagEnd e))))
      ⟨name, raw, e⟩ tag σ' := by
  obtain ⟨raw, hraw, hmeaning⟩ := exists_of_attributes (b := b) has hsp e
  refine ⟨raw, takes_markup_startTag hname.isTagName (takes_scanStartTag hname hraw), ?_⟩
  rw [resolveTag, hmeaning hr, ok_bind, hfinish]
  rfl

end Netconf.Xml
