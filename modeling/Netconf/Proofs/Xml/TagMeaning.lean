import Netconf.Proofs.Xml.Locality
import Netconf.Xml.Resolve

/-!
# The meaning of a start tag does not depend on where it stands

Places are kept for the reports on faults only: two start tags that are written alike mean the same
in the same scope (`resolveTag_of_unplaced`).
-/

namespace Netconf.Xml

open Netconf.Outcome

/-! ## Values -/

lemma unplaced_unifyValueLineEnds (ps : List ValuePart) :
    (unifyValueLineEnds ps).map ValuePart.unplaced =
      unifyValueLineEnds (ps.map ValuePart.unplaced) := by
  fun_induction unifyValueLineEnds ps with
  | case1 s ih => exact congrArg (ValuePart.char '\n' :: ·) ih
  | case2 p s hne ih =>
    -- without their places parts are the same characters as before
    rw [List.map_cons, List.map_cons, ih, unifyValueLineEnds.eq_2]
    intro t hp ht
    obtain ⟨q, s, rfl⟩ := List.exists_cons_of_ne_nil (l := s) (by rintro rfl; cases ht)
    rw [List.map_cons, List.cons.injEq] at ht
    cases p with
    | char c =>
      cases q with
      | char d =>
        cases hp
        cases ht.1
        exact hne s rfl rfl
      | reference r place => cases ht.1
    | reference r place => cases hp
  | case3 => rfl

lemma unplaced_originValue (origin : Origin) {ps ps' : List ValuePart}
    (h : ps.map ValuePart.unplaced = ps'.map ValuePart.unplaced) :
    (origin.value ps).map ValuePart.unplaced = (origin.value ps').map ValuePart.unplaced := by
  cases origin with
  | document => rw [Origin.value, unplaced_unifyValueLineEnds, unplaced_unifyValueLineEnds, h]
  | entity => exact h

lemma partsValue_of_unplaced {entity : List Char → List Char → Except ValueFault (List Char)}
    (hentity : ∀ {name place v}, entity name place = .ok v → ∀ place', entity name place' = .ok v)
    {ps ps' : List ValuePart} {v : List Char}
    (hps : ps.map ValuePart.unplaced = ps'.map ValuePart.unplaced)
    (h : partsValue entity ps = .ok v) : partsValue entity ps' = .ok v := by
  induction ps generalizing ps' v with
  | nil =>
    rw [List.map_eq_nil_iff.1 hps.symm]
    exact h
  | cons p ps ih =>
    cases ps' with
    | nil => cases hps
    | cons p' ps' =>
      rw [List.map_cons, List.map_cons, List.cons.injEq] at hps
      obtain ⟨hp, hps⟩ := hps
      cases p with
      | char c =>
        cases p' with
        | char c' =>
          cases hp
          obtain ⟨vs, hvs, rfl⟩ := map_eq_ok_iff.1 h
          rw [partsValue, ih hps hvs]
          rfl
        | reference r place => cases hp
      | reference r place =>
        cases p' with
        | char c' => cases hp
        | reference r' place' =>
          cases hp
          cases r with
          | character n =>
            rw [partsValue] at h ⊢
            split at h
            · cases h
            · next hc =>
              obtain ⟨vs, hvs, rfl⟩ := map_eq_ok_iff.1 h
              rw [ih hps hvs]
              rfl
          | entity name =>
            obtain ⟨v₁, hv₁, htail⟩ := bind_eq_ok_iff.1 h
            obtain ⟨v₂, hv₂, hret⟩ := bind_eq_ok_iff.1 htail
            rw [partsValue, hentity hv₁ place', ok_bind, ih hps hv₂, ok_bind]
            exact hret

/-- Where a reference to an entity stands only matters to its faults. -/
lemma readEntity_of_place {d : Dtd} {opened : List (List Char)} {name place v : List Char}
    (h : d.readEntity opened name place = .ok v) (place' : List Char) :
    d.readEntity opened name place' = .ok v := by
  unfold Dtd.readEntity at h ⊢
  generalize d.entities.length = budget at h ⊢
  rw [Dtd.entityValue.eq_def] at h ⊢
  cases hpre : predefined? name with
  | some c =>
    simp only [hpre] at h ⊢
    exact h
  | none =>
    cases he : d.entity? name with
    | none =>
      simp only [hpre, he] at h ⊢
      exact h
    | some e =>
      -- only what is kept elsewhere has the place in its fault
      cases e with
      | internal text =>
        simp only [hpre, he] at h ⊢
        exact h
      | external =>
        simp only [hpre, he] at h
        split at h <;> cases h
      | binary =>
        simp only [hpre, he] at h
        split at h <;> cases h

/-! ## Tags -/

lemma addWritten_of_unplaced {d : Dtd} {origin : Origin} {opened : List (List Char)}
    {element place place' : List Char} {r r' : TagReading} {as as' : List RawAttribute}
    (has : as.map RawAttribute.unplaced = as'.map RawAttribute.unplaced)
    (h : TagReading.addWritten d origin opened element place r as = .ok r') :
    TagReading.addWritten d origin opened element place' r as' = .ok r' := by
  induction as generalizing as' r with
  | nil =>
    rw [List.map_eq_nil_iff.1 has.symm]
    exact h
  | cons a as ih =>
    cases as' with
    | nil => cases has
    | cons a' as' =>
      rw [List.map_cons, List.map_cons, List.cons.injEq] at has
      obtain ⟨ha, has⟩ := has
      obtain ⟨name, value, p⟩ := a
      obtain ⟨name', value', p'⟩ := a'
      simp only [RawAttribute.unplaced, RawAttribute.mk.injEq, and_true] at ha
      obtain ⟨rfl, hvalue⟩ := ha
      rw [TagReading.addWritten] at h ⊢
      split at h
      · cases h
      · next hseen =>
        obtain ⟨v, hv, htail⟩ := bind_eq_ok_iff.1 h
        obtain ⟨r₁, hr₁, htail⟩ := bind_eq_ok_iff.1 htail
        have hparts : partsValue (d.readEntity opened) (origin.value value') = .ok v :=
          partsValue_of_unplaced (fun h => readEntity_of_place h)
            (unplaced_originValue origin hvalue) (mapError_eq_ok_iff.1 hv)
        rw [if_neg hseen, mapError_eq_ok_iff.2 hparts, ok_bind]
        dsimp only
        rw [mapError_eq_ok_iff.2 (mapError_eq_ok_iff.1 hr₁), ok_bind]
        exact ih has htail

/-- **Tags that are written alike mean the same.** -/
theorem resolveTag_of_unplaced {d : Dtd} {origin : Origin} {opened : List (List Char)}
    {scope : Scope} {place : List Char} {t t' : RawTag} {resolved : Tag × Scope}
    (ht : t.unplaced = t'.unplaced)
    (h : resolveTag d origin opened scope place t = .ok resolved) (place' : List Char) :
    resolveTag d origin opened scope place' t' = .ok resolved := by
  obtain ⟨r, hr, hfinish⟩ := bind_eq_ok_iff.1 h
  obtain ⟨name, as, e⟩ := t
  obtain ⟨name', as', e'⟩ := t'
  simp only [RawTag.unplaced, RawTag.mk.injEq] at ht
  obtain ⟨rfl, has, rfl⟩ := ht
  rw [resolveTag, addWritten_of_unplaced has hr, ok_bind]
  exact mapError_eq_ok_iff.2 (mapError_eq_ok_iff.1 hfinish)

end Netconf.Xml
