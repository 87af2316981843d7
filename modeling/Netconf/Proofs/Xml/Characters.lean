import Netconf.Proofs.Xml.Prolog
import Netconf.Proofs.Xml.TagMeaning
import Netconf.Proofs.Xml.Tokens

/-!
# Characters that come out of reading

Whatever is read from a document, from its tokens (`isScanned_of_mem_lex`), from a value
(`isXmlText_of_partsValue`) or from the value that an attribute is declared with
(`holdsXmlText_of_readProlog`), consists of characters that a document may hold. The text of an
entity is read again wherever a reference stands, so nothing needs to be known about it.
-/

namespace Netconf.Xml

open Netconf.Outcome

/-! ## Texts -/

/-- Whether a document may hold all characters of a text. -/
def IsXmlText (s : List Char) : Prop := ∀ c ∈ s, isXmlChar c = true

instance (s : List Char) : Decidable (IsXmlText s) := List.decidableBAll _ _

lemma isXmlText_nil : IsXmlText [] := fun _ hc => absurd hc List.not_mem_nil

lemma isXmlText_cons {c : Char} {s : List Char} :
    IsXmlText (c :: s) ↔ isXmlChar c = true ∧ IsXmlText s := List.forall_mem_cons

lemma isXmlText_append {s t : List Char} : IsXmlText (s ++ t) ↔ IsXmlText s ∧ IsXmlText t :=
  List.forall_mem_append

lemma isXmlChar_of_charOfNumber? {n : ℕ} {c : Char} (h : charOfNumber? n = some c) :
    isXmlChar c = true := by
  unfold charOfNumber? at h
  split at h
  · next hn =>
    cases h
    exact hn.2
  · cases h

lemma isXmlChar_of_predefined? {name : List Char} {c : Char} (h : predefined? name = some c) :
    isXmlChar c = true := by
  unfold predefined? at h
  repeat' split at h
  all_goals cases h
  all_goals rfl

lemma isXmlText_originText (origin : Origin) {s : List Char} (h : IsXmlText s) :
    IsXmlText (origin.text s) := by
  cases origin with
  | document => exact (forall_mem_unifyLineEnds (by decide) (by decide)).2 h
  | entity => exact h

/-- Collapsing spaces leaves no character that was not there. -/
lemma mem_of_mem_collapseSpaces {c : Char} {s : List Char} (h : c ∈ collapseSpaces s) : c ∈ s := by
  fun_induction collapseSpaces s with
  | case1 => exact h
  | case2 s ih => exact List.mem_cons_of_mem _ (ih h)
  | case3 d s hd rest ih =>
    simp only [List.mem_append, List.mem_cons] at h
    rcases h with (rfl | h) | h
    · exact List.mem_cons_self
    · exact List.mem_cons_of_mem _ ((List.takeWhile_prefix _).subset h)
    · -- between two words there is a space of the text
      split at h
      · cases h
      · next hrest =>
        have hdrop : s.dropWhile (· != ' ') ≠ [] := by
          intro hnil
          apply hrest
          change collapseSpaces (s.dropWhile (· != ' ')) = []
          rw [hnil, collapseSpaces]
        rcases List.mem_cons.1 h with rfl | h
        · obtain ⟨e, t, ht⟩ := List.exists_cons_of_ne_nil hdrop
          have he := List.head?_dropWhile_not (· != ' ') s
          rw [ht] at he
          have he : e = ' ' := by simpa using he
          refine List.mem_cons_of_mem _ ((List.dropWhile_suffix (· != ' ')).subset ?_)
          rw [ht, he]
          exact List.mem_cons_self
        · exact List.mem_cons_of_mem _ ((List.dropWhile_suffix _).subset (ih h))

lemma isXmlText_settleSpaces {isTokenized : Bool} {v : List Char} (h : IsXmlText v) :
    IsXmlText (settleSpaces isTokenized v) := by
  unfold settleSpaces
  split
  · exact fun c hc => h c (mem_of_mem_collapseSpaces hc)
  · exact h

lemma isXmlText_splitText (s : List Char) : IsXmlText (splitText s).1 := by
  induction s with
  | nil => exact isXmlText_nil
  | cons c s ih =>
    unfold splitText
    split
    · exact isXmlText_nil
    · next hends =>
      refine isXmlText_cons.2 ⟨?_, ih⟩
      simp only [endsText, Bool.or_eq_true, not_or, Bool.not_eq_true, Bool.not_eq_false'] at hends
      exact hends.1.2

lemma isXmlText_of_scanCdataBody {s t rest : List Char} (h : scanCdataBody s = .ok (t, rest)) :
    IsXmlText t := by
  induction s generalizing t rest with
  | nil => cases h
  | cons c s ih =>
    unfold scanCdataBody at h
    split at h
    · cases h
      exact isXmlText_nil
    · split at h
      · cases h
      · split at h
        · next hc =>
          obtain ⟨⟨t', r⟩, hr, hret⟩ := map_eq_ok_iff.1 h
          cases hret
          exact isXmlText_cons.2 ⟨hc, ih hr⟩
        · cases h

lemma isXmlText_of_scanCdata {s t rest : List Char} (h : scanCdata s = .ok (t, rest)) :
    IsXmlText t := by
  unfold scanCdata at h
  split at h
  · cases h
  · obtain ⟨r, -, hbody⟩ := bind_eq_ok_iff.1 h
    exact isXmlText_of_scanCdataBody hbody

/-! ## Parts of values -/

/-- Whether a document may hold all characters among the parts of a value. -/
def HoldXmlText (ps : List ValuePart) : Prop := ∀ c, .char c ∈ ps → isXmlChar c = true

lemma holdXmlText_nil : HoldXmlText [] := fun _ hc => absurd hc List.not_mem_nil

lemma holdXmlText_cons {p : ValuePart} {ps : List ValuePart} :
    HoldXmlText (p :: ps) ↔ (∀ c, p = .char c → isXmlChar c = true) ∧ HoldXmlText ps := by
  constructor
  · intro h
    exact ⟨fun c hp => h c (hp ▸ List.mem_cons_self), fun c hc => h c (List.mem_cons_of_mem _ hc)⟩
  · rintro ⟨hp, hps⟩ c hc
    rcases List.mem_cons.1 hc with heq | hc
    · exact hp c heq.symm
    · exact hps c hc

lemma holdXmlText_originValue (origin : Origin) {ps : List ValuePart} (h : HoldXmlText ps) :
    HoldXmlText (origin.value ps) := by
  cases origin with
  | entity => exact h
  | document =>
    rw [Origin.value]
    fun_induction unifyValueLineEnds ps with
    | case1 s ih =>
      rw [holdXmlText_cons, holdXmlText_cons] at h
      refine holdXmlText_cons.2 ⟨?_, ih h.2.2⟩
      rintro c ⟨⟩
      rfl
    | case2 p s _ ih =>
      rw [holdXmlText_cons] at h
      exact holdXmlText_cons.2 ⟨h.1, ih h.2⟩
    | case3 => exact h

lemma isXmlText_of_partsValue {entity : List Char → List Char → Except ValueFault (List Char)}
    (hentity : ∀ name place v, entity name place = .ok v → IsXmlText v) {ps : List ValuePart}
    {v : List Char} (hps : HoldXmlText ps) (h : partsValue entity ps = .ok v) : IsXmlText v := by
  fun_induction partsValue entity ps generalizing v with
  | case1 =>
    cases h
    exact isXmlText_nil
  | case2 c ps ih =>
    rw [holdXmlText_cons] at hps
    obtain ⟨vs, hvs, rfl⟩ := map_eq_ok_iff.1 h
    refine isXmlText_cons.2 ⟨?_, ih hps.2 hvs⟩
    split
    · rfl
    · exact hps.1 c rfl
  | case3 => cases h
  | case4 n place ps c hc ih =>
    rw [holdXmlText_cons] at hps
    obtain ⟨vs, hvs, rfl⟩ := map_eq_ok_iff.1 h
    exact isXmlText_cons.2 ⟨isXmlChar_of_charOfNumber? hc, ih hps.2 hvs⟩
  | case5 name place ps ih =>
    rw [holdXmlText_cons] at hps
    obtain ⟨v₁, hv₁, htail⟩ := bind_eq_ok_iff.1 h
    obtain ⟨v₂, hv₂, hret⟩ := bind_eq_ok_iff.1 htail
    cases hret
    exact isXmlText_append.2 ⟨hentity name place v₁ hv₁, ih hps.2 hv₂⟩

/-! ## Declared values -/

/-- Whether the values that attributes are declared with are of characters that a document may
hold. -/
def Dtd.HoldsXmlText (d : Dtd) : Prop :=
  ∀ a ∈ d.attributes, ∀ v, a.default = some v → IsXmlText v

lemma holdsXmlText_empty (b : Bool) : (Dtd.empty b).HoldsXmlText :=
  fun _ ha => absurd ha List.not_mem_nil

lemma holdsXmlText_declareEntity {d : Dtd} (hd : d.HoldsXmlText) (name : List Char) (e : Entity) :
    (d.declareEntity name e).HoldsXmlText := by
  unfold Dtd.declareEntity
  split
  · exact hd
  · exact hd

lemma holdsXmlText_declareAttribute {d : Dtd} (hd : d.HoldsXmlText) {a : AttributeDeclaration}
    (ha : ∀ v, a.default = some v → IsXmlText v) : (d.declareAttribute a).HoldsXmlText := by
  unfold Dtd.declareAttribute
  split
  · intro a' ha' v hv
    rcases List.mem_append.1 ha' with ha' | ha'
    · exact hd a' ha' v hv
    · rw [List.mem_singleton.1 ha'] at hv
      exact ha v hv
  · exact hd

variable [Encoding]

/-! ## Scanned values -/

lemma isXmlChar_of_scanValuePart {s rest : List Char} {p : ValuePart}
    (h : scanValuePart s = .ok (p, rest)) : ∀ c, p = .char c → isXmlChar c = true := by
  rintro c rfl
  unfold scanValuePart at h
  split at h
  · cases h
  · obtain ⟨⟨r, r'⟩, -, hret⟩ := bind_eq_ok_iff.1 h
    cases hret
  · split at h
    · next hc =>
      cases h
      exact hc.2
    · cases h

lemma holdXmlText_of_scanValue {quote : Char} {s rest : List Char} {v : List ValuePart}
    (h : scanValue quote s = .ok (v, rest)) : HoldXmlText v := by
  fun_induction scanValue quote s generalizing v rest with
  | case1 => cases h
  | case2 =>
    cases h
    exact holdXmlText_nil
  | case3 => cases h
  | case4 c tail _ p r hp _ ih =>
    obtain ⟨⟨ps, r'⟩, hps, hret⟩ := map_eq_ok_iff.1 h
    cases hret
    exact holdXmlText_cons.2 ⟨isXmlChar_of_scanValuePart hp, ih hps⟩

lemma holdXmlText_valueParts (s : List Char) : HoldXmlText (valueParts s).1 := by
  fun_induction valueParts s with
  | case1 => exact holdXmlText_nil
  | case2 => exact holdXmlText_nil
  | case3 => exact holdXmlText_nil
  | case4 c tail p rest hp _ ps stop hps ih =>
    rw [hps] at ih
    exact holdXmlText_cons.2 ⟨isXmlChar_of_scanValuePart hp, ih⟩

lemma isXmlText_of_textValue {origin : Origin}
    {entity : List Char → List Char → Except ValueFault (List Char)}
    (hentity : ∀ name place v, entity name place = .ok v → IsXmlText v) {s v : List Char}
    (h : textValue origin entity s = .ok v) : IsXmlText v := by
  unfold textValue at h
  have hparts := holdXmlText_originValue origin (@holdXmlText_valueParts origin.encoding s)
  generalize @valueParts origin.encoding s = r at h hparts
  obtain ⟨ps, stop⟩ := r
  obtain ⟨v', hv', htail⟩ := bind_eq_ok_iff.1 h
  split at htail
  · cases htail
    exact isXmlText_of_partsValue hentity hparts hv'
  · cases htail

lemma isXmlText_of_entityValue {d : Dtd} {budget : ℕ} {opened : List (List Char)}
    (name place v : List Char) (h : d.entityValue budget opened name place = .ok v) :
    IsXmlText v := by
  induction budget generalizing opened name place v with
  | zero =>
    rw [Dtd.entityValue.eq_def] at h
    dsimp only at h
    split at h
    · next c hc =>
      cases h
      exact isXmlText_cons.2 ⟨isXmlChar_of_predefined? hc, isXmlText_nil⟩
    · repeat' split at h
      all_goals cases h
      exact isXmlText_nil
  | succ budget ih =>
    rw [Dtd.entityValue.eq_def] at h
    dsimp only at h
    split at h
    · next c hc =>
      cases h
      exact isXmlText_cons.2 ⟨isXmlChar_of_predefined? hc, isXmlText_nil⟩
    · split at h
      · split at h
        · cases h
        · cases h
          exact isXmlText_nil
      · split at h
        · cases h
        · split at h
          · cases h
          · cases h
          · exact isXmlText_of_textValue (fun name place v => ih name place v)
              (mapError_eq_ok_iff.1 h)

lemma isXmlText_of_readEntity {d : Dtd} {opened : List (List Char)} (name place v : List Char)
    (h : d.readEntity opened name place = .ok v) : IsXmlText v :=
  isXmlText_of_entityValue name place v h

/-! ## Tokens -/

/-- Whether a start tag has names, and values of characters that a document may hold. -/
structure RawTag.IsScanned (t : RawTag) : Prop where
  name : IsQName t.name
  values : ∀ a ∈ t.attributes, HoldXmlText a.value

/-- Whether a document may hold the characters of a token. -/
def Markup.IsScanned : Markup → Prop
  | .text s => IsXmlText s
  | .cdata s => IsXmlText s
  | .startTag t => t.IsScanned
  | _ => True

lemma RawTag.IsScanned.of_narrow {t : RawTag} (h : @RawTag.IsScanned .narrow t) : t.IsScanned := by
  obtain ⟨hname, hvalues⟩ := h
  exact ⟨hname.of_narrow, hvalues⟩

/-- What was scanned where only ASCII is looked up could have been scanned in any encoding. -/
lemma Markup.IsScanned.of_narrow {m : Markup} (h : @Markup.IsScanned .narrow m) :
    m.IsScanned := by
  cases m with
  | startTag t => exact RawTag.IsScanned.of_narrow h
  | _ => exact h

lemma holdXmlText_of_scanAttribute {s rest : List Char} {a : RawAttribute}
    (h : scanAttribute s = .ok (a, rest)) : HoldXmlText a.value := by
  obtain ⟨⟨n, r₁⟩, -, htail⟩ := bind_eq_ok_iff.1 h
  obtain ⟨⟨u, r₂⟩, -, htail⟩ := bind_eq_ok_iff.1 htail
  obtain ⟨⟨q, r₃⟩, -, htail⟩ := bind_eq_ok_iff.1 htail
  obtain ⟨⟨v, r₄⟩, hv, hret⟩ := bind_eq_ok_iff.1 htail
  cases hret
  exact holdXmlText_of_scanValue hv

lemma holdXmlText_of_scanAttributes {s rest : List Char} {as : List RawAttribute} {e : Bool}
    (h : scanAttributes s = .ok ((as, e), rest)) : ∀ a ∈ as, HoldXmlText a.value := by
  fun_induction scanAttributes s generalizing as e rest with
  | case1 => cases h
  | case2 c tail =>
    obtain ⟨⟨e', r'⟩, -, hret⟩ := map_eq_ok_iff.1 h
    cases hret
    exact fun a ha => absurd ha List.not_mem_nil
  | case3 => cases h
  | case4 c tail s' hs' a r ha =>
    rename_i ih
    obtain ⟨⟨⟨as', e'⟩, r''⟩, hr, hret⟩ := map_eq_ok_iff.1 h
    cases hret
    exact List.forall_mem_cons.2 ⟨holdXmlText_of_scanAttribute ha, ih hr⟩

lemma isScanned_of_scanStartTag {s rest : List Char} {t : RawTag}
    (h : scanStartTag s = .ok (t, rest)) : t.IsScanned := by
  obtain ⟨⟨n, r₁⟩, hn, htail⟩ := bind_eq_ok_iff.1 h
  obtain ⟨⟨⟨as, e⟩, r₂⟩, has, hret⟩ := bind_eq_ok_iff.1 htail
  cases hret
  exact ⟨(isQName_of_scanQName hn).1, holdXmlText_of_scanAttributes has⟩

lemma isScanned_of_scanBracket {s rest : List Char} {m : Markup}
    (h : scanBracket s = .ok (m, rest)) : m.IsScanned := by
  unfold scanBracket at h
  split at h
  · unfold scanBang at h
    split at h
    · obtain ⟨⟨u, r⟩, -, htail⟩ := bind_eq_ok_iff.1 h
      obtain ⟨r', -, hret⟩ := map_eq_ok_iff.1 htail
      cases hret
      trivial
    · obtain ⟨⟨t, r⟩, hr, hret⟩ := map_eq_ok_iff.1 h
      cases hret
      exact isXmlText_of_scanCdata hr
    · cases h
  · obtain ⟨⟨b, r⟩, -, hret⟩ := map_eq_ok_iff.1 h
    cases hret
    cases b <;> trivial
  · obtain ⟨⟨n, r⟩, -, hret⟩ := map_eq_ok_iff.1 h
    cases hret
    trivial
  · obtain ⟨⟨t, r⟩, ht, hret⟩ := map_eq_ok_iff.1 h
    cases hret
    exact isScanned_of_scanStartTag ht

lemma isScanned_of_scanMarkup {s rest : List Char} {m : Markup}
    (h : scanMarkup s = .ok (m, rest)) : m.IsScanned := by
  unfold scanMarkup at h
  split at h
  · exact isScanned_of_scanBracket h
  · obtain ⟨⟨r, r'⟩, -, hret⟩ := map_eq_ok_iff.1 h
    cases hret
    trivial
  · split at h
    · cases h
    · next hsplit =>
      have ht := congrArg Prod.fst hsplit ▸ isXmlText_splitText s
      cases h
      exact ht

lemma isScanned_of_mem_lex {s : List Char} {t : Token} (h : t ∈ lex s) : t.markup.IsScanned := by
  rcases (place_of_mem_lex h).2 with ⟨f, hf⟩ | hscan
  · rw [hf]
    trivial
  · exact isScanned_of_scanMarkup hscan

/-! ## Document type declarations -/

section Declarations

variable {d : Dtd} {ts : List PrologToken}

lemma isXmlText_of_takeDefault {isTokenized : Bool} {parsed : Parsed ts (Option (List Char))}
    (h : takeDefault d isTokenized ts = .ok parsed) :
    ∀ v, parsed.value = some v → IsXmlText v := by
  obtain ⟨p, -, htail⟩ := bind_eq_ok_iff.1 h
  dsimp only at htail
  split at htail
  · split at htail
    · next v' hv' =>
      cases htail
      rintro v ⟨⟩
      exact isXmlText_settleSpaces (isXmlText_of_textValue isXmlText_of_readEntity hv')
    · cases htail
  · cases htail
    rintro v ⟨⟩

lemma isXmlText_of_takeValueRule {isTokenized : Bool} {parsed : Parsed ts (Option (List Char))}
    (h : takeValueRule d isTokenized ts = .ok parsed) :
    ∀ v, parsed.value = some v → IsXmlText v := by
  unfold takeValueRule at h
  split at h
  · exact isXmlText_of_takeDefault h
  split at h
  · obtain ⟨⟨u, ts₁, h₁⟩, -, htail⟩ := bind_eq_ok_iff.1 h
    obtain ⟨⟨v, ts₂, h₂⟩, hv, hret⟩ := bind_eq_ok_iff.1 htail
    cases hret
    have := isXmlText_of_takeDefault hv
    exact this
  · obtain ⟨⟨u, ts₁, h₁⟩, -, hret⟩ := bind_eq_ok_iff.1 h
    cases hret
    rintro v ⟨⟩

lemma holdsXmlText_of_takeAttribute {element : List Char} {parsed : Parsed ts Dtd}
    (hd : d.HoldsXmlText) (h : takeAttribute d element ts = .ok parsed) :
    parsed.value.HoldsXmlText := by
  obtain ⟨⟨name, ts₁, h₁⟩, -, htail⟩ := bind_eq_ok_iff.1 h
  obtain ⟨⟨isTokenized, ts₂, h₂⟩, -, htail⟩ := bind_eq_ok_iff.1 htail
  obtain ⟨⟨v, ts₃, h₃⟩, hv, hret⟩ := bind_eq_ok_iff.1 htail
  have := isXmlText_of_takeValueRule hv
  cases hret
  exact holdsXmlText_declareAttribute hd this

lemma holdsXmlText_of_takeAttributes {element : List Char} {parsed : Parsed ts Dtd}
    (hd : d.HoldsXmlText) (h : takeAttributes d element ts = .ok parsed) :
    parsed.value.HoldsXmlText := by
  induction hn : ts.length using Nat.strongRecOn generalizing d ts with
  | ind n ih =>
    rw [takeAttributes] at h
    split at h
    · obtain ⟨⟨u, ts₁, h₁⟩, -, hret⟩ := bind_eq_ok_iff.1 h
      cases hret
      exact hd
    · obtain ⟨⟨d₁, ts₁, h₁⟩, hd₁, htail⟩ := bind_eq_ok_iff.1 h
      obtain ⟨⟨d₂, ts₂, h₂⟩, hd₂, hret⟩ := bind_eq_ok_iff.1 htail
      have := ih _ (hn ▸ h₁.length_lt) (holdsXmlText_of_takeAttribute hd hd₁) hd₂ rfl
      cases hret
      exact this

lemma holdsXmlText_of_takeEntityDeclaration {parsed : Parsed ts Dtd} (hd : d.HoldsXmlText)
    (h : takeEntityDeclaration d ts = .ok parsed) : parsed.value.HoldsXmlText := by
  unfold takeEntityDeclaration at h
  split at h
  · obtain ⟨⟨_, ts₁, h₁⟩, -, htail⟩ := bind_eq_ok_iff.1 h
    obtain ⟨⟨_, ts₂, h₂⟩, -, htail⟩ := bind_eq_ok_iff.1 htail
    dsimp only at htail
    -- a parameter entity is not kept, however it is declared
    split at htail
    · obtain ⟨p, -, htail⟩ := bind_eq_ok_iff.1 htail
      obtain ⟨⟨_, ts₃, h₃⟩, -, htail⟩ := bind_eq_ok_iff.1 htail
      obtain ⟨⟨_, ts₄, h₄⟩, -, hret⟩ := bind_eq_ok_iff.1 htail
      cases hret
      exact hd
    · obtain ⟨⟨_, ts₃, h₃⟩, -, htail⟩ := bind_eq_ok_iff.1 htail
      obtain ⟨⟨_, ts₄, h₄⟩, -, hret⟩ := bind_eq_ok_iff.1 htail
      cases hret
      exact hd
  · obtain ⟨⟨name, ts₁, h₁⟩, -, htail⟩ := bind_eq_ok_iff.1 h
    dsimp only at htail
    split at htail
    · obtain ⟨⟨text, ts₂, h₂⟩, -, htail⟩ := bind_eq_ok_iff.1 htail
      obtain ⟨⟨_, ts₃, h₃⟩, -, hret⟩ := bind_eq_ok_iff.1 htail
      cases hret
      exact holdsXmlText_declareEntity hd _ _
    · obtain ⟨⟨_, ts₂, h₂⟩, -, htail⟩ := bind_eq_ok_iff.1 htail
      dsimp only at htail
      split at htail
      · obtain ⟨⟨_, ts₃, h₃⟩, -, htail⟩ := bind_eq_ok_iff.1 htail
        obtain ⟨⟨_, ts₄, h₄⟩, -, htail⟩ := bind_eq_ok_iff.1 htail
        obtain ⟨⟨_, ts₅, h₅⟩, -, hret⟩ := bind_eq_ok_iff.1 htail
        cases hret
        exact holdsXmlText_declareEntity hd _ _
      · obtain ⟨⟨_, ts₃, h₃⟩, -, hret⟩ := bind_eq_ok_iff.1 htail
        cases hret
        exact holdsXmlText_declareEntity hd _ _

/-- Declarations of elements and notations declare no value. -/
lemma holdsXmlText_of_takeMarkupDeclaration? {kind : List Char}
    {declaration : Except Fault (Parsed ts Dtd)} {parsed : Parsed ts Dtd} (hd : d.HoldsXmlText)
    (h : takeMarkupDeclaration? d kind ts = some declaration) (hparsed : declaration = .ok parsed) :
    parsed.value.HoldsXmlText := by
  unfold takeMarkupDeclaration? at h
  dsimp only at h
  subst hparsed
  split at h
  · exact holdsXmlText_of_takeEntityDeclaration hd (Option.some.inj h)
  split at h
  · obtain ⟨⟨element, ts₁, h₁⟩, -, htail⟩ := bind_eq_ok_iff.1 (Option.some.inj h)
    obtain ⟨⟨d₁, ts₂, h₂⟩, hd₁, hret⟩ := bind_eq_ok_iff.1 htail
    have := holdsXmlText_of_takeAttributes hd hd₁
    cases hret
    exact this
  split at h
  · obtain ⟨u, -, hret⟩ := map_eq_ok_iff.1 (Option.some.inj h)
    cases hret
    exact hd
  split at h
  · obtain ⟨u, -, hret⟩ := map_eq_ok_iff.1 (Option.some.inj h)
    cases hret
    exact hd
  · cases h

lemma holdsXmlText_of_takeSubset {parsed : Parsed ts Dtd} (hd : d.HoldsXmlText)
    (h : takeSubset d ts = .ok parsed) : parsed.value.HoldsXmlText := by
  induction hn : ts.length using Nat.strongRecOn generalizing d ts with
  | ind n ih =>
    cases ts with
    | nil =>
      rw [takeSubset] at h
      cases h
    | cons t ts =>
      rw [takeSubset] at h
      split at h
      · cases h
        exact hd
      · obtain ⟨⟨d₁, ts₁, h₁⟩, hd₁, hret⟩ := bind_eq_ok_iff.1 h
        have := ih ts.length (hn ▸ Nat.lt_succ_self _) hd hd₁ rfl
        cases hret
        exact this
      · obtain ⟨⟨d₁, ts₁, h₁⟩, hd₁, hret⟩ := bind_eq_ok_iff.1 h
        have := ih ts.length (hn ▸ Nat.lt_succ_self _)
          (d := { d with hasUnread := true, isCounting := d.isStandalone }) hd hd₁ rfl
        cases hret
        exact this
      · split at h
        · cases h
        · next declaration hdeclaration =>
          obtain ⟨⟨d₁, ts₁, h₁⟩, hd₁, htail⟩ := bind_eq_ok_iff.1 h
          obtain ⟨⟨d₂, ts₂, h₂⟩, hd₂, hret⟩ := bind_eq_ok_iff.1 htail
          have := ih ts₁.length (hn ▸ Nat.lt_succ_of_lt h₁.length_lt)
            (holdsXmlText_of_takeMarkupDeclaration? hd hdeclaration hd₁) hd₂ rfl
          cases hret
          exact this
      · cases h

lemma holdsXmlText_of_takeDoctypeEnd {parsed : Parsed ts Dtd} (hd : d.HoldsXmlText)
    (h : takeDoctypeEnd d ts = .ok parsed) : parsed.value.HoldsXmlText := by
  unfold takeDoctypeEnd at h
  split at h
  · obtain ⟨⟨_, ts₁, h₁⟩, -, htail⟩ := bind_eq_ok_iff.1 h
    obtain ⟨⟨d', ts₂, h₂⟩, hd', htail⟩ := bind_eq_ok_iff.1 htail
    obtain ⟨⟨_, ts₃, h₃⟩, -, hret⟩ := bind_eq_ok_iff.1 htail
    have := holdsXmlText_of_takeSubset hd hd'
    cases hret
    exact this
  · obtain ⟨⟨_, ts₁, h₁⟩, -, hret⟩ := bind_eq_ok_iff.1 h
    cases hret
    exact hd

lemma holdsXmlText_of_takeDoctype {parsed : Parsed ts Dtd} (hd : d.HoldsXmlText)
    (h : takeDoctype d ts = .ok parsed) : parsed.value.HoldsXmlText := by
  obtain ⟨⟨_, ts₁, h₁⟩, -, htail⟩ := bind_eq_ok_iff.1 h
  dsimp only at htail
  split at htail
  · obtain ⟨⟨d', ts₂, h₂⟩, hd', hret⟩ := bind_eq_ok_iff.1 htail
    have := holdsXmlText_of_takeDoctypeEnd hd hd'
    cases hret
    exact this
  · obtain ⟨⟨_, ts₂, h₂⟩, -, htail⟩ := bind_eq_ok_iff.1 htail
    obtain ⟨⟨d', ts₃, h₃⟩, hd', hret⟩ := bind_eq_ok_iff.1 htail
    have := holdsXmlText_of_takeDoctypeEnd (d := { d with hasUnread := true }) hd hd'
    cases hret
    exact this

end Declarations

lemma holdsXmlText_of_readMisc {d d' : Dtd} {mayDeclare : Bool} {ts : List PrologToken}
    {root : List Char} (hd : d.HoldsXmlText) (h : readMisc d mayDeclare ts = .ok (d', root)) :
    d'.HoldsXmlText := by
  induction hn : ts.length using Nat.strongRecOn generalizing d mayDeclare ts with
  | ind n ih =>
    cases ts with
    | nil =>
      rw [readMisc] at h
      cases h
    | cons t ts =>
      rw [readMisc] at h
      split at h
      · cases h
        exact hd
      · exact ih _ (hn ▸ Nat.lt_succ_self _) hd h rfl
      · split at h
        · split at h
          · cases h
          · next d₁ ts₁ hbehind htake =>
            exact ih _ (hn ▸ Nat.lt_succ_of_lt hbehind.length_lt)
              (holdsXmlText_of_takeDoctype hd htake) h rfl
        · cases h
      · cases h

/-- **The values that a document declares are of characters that it may hold.** -/
theorem holdsXmlText_of_readProlog {s root : List Char} {d : Dtd}
    (h : readProlog s = .ok (d, root)) : d.HoldsXmlText := by
  obtain ⟨⟨b, ts⟩, -, hmisc⟩ := bind_eq_ok_iff.1 h
  exact holdsXmlText_of_readMisc (holdsXmlText_empty b) hmisc

end Netconf.Xml
