import Netconf.Proofs.Xml.Written
import Netconf.Xml.Declaration

/-!
# The text of XML declarations

A declaration that is read holds no angle bracket: its names are given ones, and its values are
made of few characters.
-/

namespace Netconf.Xml

open Netconf.Outcome

/-- No opening bracket stands in the part of a declaration outside its name. -/
lemma eq_of_scanDeclarationPart {s rest : List Char} {part : DeclarationPart}
    (h : scanDeclarationPart s = .ok (some (part, rest))) :
    ∃ w, s = w ++ rest ∧ ('<' ∈ w → '<' ∈ part.name) := by
  unfold scanDeclarationPart at h
  dsimp only at h
  split at h
  · cases h
  split at h
  · cases h
  split at h
  · next afterSign hsign =>
    split at h
    · cases h
    split at h
    · next quote inner hquote =>
      split at h
      · next hq =>
        split at h
        · next c afterValue hvalue =>
          split at h
          · next hc =>
            cases h
            dsimp only
            obtain ⟨sp₁, hsp₁, h₁⟩ := exists_spaces_of_skipSpace (s := s) rfl
            obtain ⟨sp₂, hsp₂, h₂⟩ := exists_spaces_of_skipSpace hsign
            obtain ⟨sp₃, hsp₃, h₃⟩ := exists_spaces_of_skipSpace hquote
            have hname : (skipSpace s).takeWhile isDeclarationNameChar ++
                (skipSpace s).dropWhile isDeclarationNameChar = skipSpace s :=
              List.takeWhile_append_dropWhile
            have hinner : inner.takeWhile isDeclarationChar ++
                inner.dropWhile isDeclarationChar = inner := List.takeWhile_append_dropWhile
            have hq' : '<' ≠ quote := by rcases hq with rfl | rfl <;> decide
            have hvalue' : '<' ∉ inner.takeWhile isDeclarationChar := fun hmem =>
              ne_of_class (List.mem_takeWhile_imp hmem)
                (by decide : isDeclarationChar '<' = false) rfl
            refine ⟨sp₁ ++ ((skipSpace s).takeWhile isDeclarationNameChar ++ (sp₂ ++ '=' ::
              (sp₃ ++ quote :: (inner.takeWhile isDeclarationChar ++ [quote])))), ?_, ?_⟩
            · rw [hvalue, hc] at hinner
              rw [h₂, h₃, ← hinner] at hname
              nth_rewrite 1 [h₁, ← hname]
              simp
            · intro hmem
              simpa [hsp₁.isBare.1, hsp₂.isBare.1, hsp₃.isBare.1, hq', hvalue'] using hmem
          · cases h
        · cases h
      · cases h
    · cases h
  · cases h

lemma isSpaces_of_scanDeclarationPart {s : List Char} (h : scanDeclarationPart s = .ok none) :
    IsSpaces s := by
  unfold scanDeclarationPart at h
  dsimp only at h
  split at h
  · next hstart => exact List.dropWhile_eq_nil_iff.1 hstart
  · split at h
    · cases h
    · split at h
      · split at h
        · cases h
        · split at h
          · split at h
            · split at h
              · split at h <;> cases h
              · cases h
            · cases h
          · cases h
      · cases h

/-- No opening bracket stands in a part of the given name. -/
lemma not_mem_of_scanDeclarationPart {s rest name : List Char} {part : DeclarationPart}
    (h : scanDeclarationPart s = .ok (some (part, rest))) (hname : ¬part.name ≠ name)
    (hbare : '<' ∉ name) (hrest : '<' ∉ rest) : '<' ∉ s := by
  obtain ⟨w, rfl, hw⟩ := eq_of_scanDeclarationPart h
  rw [List.mem_append, not_or]
  refine ⟨fun hmem => hbare ?_, hrest⟩
  rw [← not_not.1 hname]
  exact hw hmem

lemma not_mem_of_readStandalone {s rest : List Char} {part : DeclarationPart} {b : Bool}
    (hpart : scanDeclarationPart s = .ok (some (part, rest)))
    (h : readStandalone part rest = .ok b) : '<' ∉ s := by
  unfold readStandalone at h
  split at h
  · cases h
  · next hname =>
    split at h
    · cases h
    · split at h
      · cases h
      · next hrest =>
        have hspaces : IsSpaces rest := List.dropWhile_eq_nil_iff.1 (not_not.1 hrest)
        exact not_mem_of_scanDeclarationPart hpart hname (by decide) hspaces.isBare.1

/-- **No tag can begin inside an XML declaration.** -/
theorem not_mem_of_readDeclaration {s : List Char} {b : Bool} (h : readDeclaration s = .ok b) :
    '<' ∉ s := by
  obtain ⟨version?, hversion, htail⟩ := bind_eq_ok_iff.1 h
  split at htail
  · cases htail
  · next version rest =>
    split at htail
    · cases htail
    · next hname =>
      refine not_mem_of_scanDeclarationPart hversion hname (by decide) ?_
      obtain ⟨part?, hpart, htail⟩ := bind_eq_ok_iff.1 htail
      split at htail
      · exact (isSpaces_of_scanDeclarationPart hpart).isBare.1
      · next part rest' =>
        split at htail
        · exact not_mem_of_readStandalone hpart htail
        · next hencoding =>
          split at htail
          · cases htail
          · refine not_mem_of_scanDeclarationPart hpart hencoding (by decide) ?_
            obtain ⟨last?, hlast, htail⟩ := bind_eq_ok_iff.1 htail
            split at htail
            · exact (isSpaces_of_scanDeclarationPart hlast).isBare.1
            · exact not_mem_of_readStandalone hlast htail

end Netconf.Xml
