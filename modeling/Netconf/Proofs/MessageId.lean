import Mathlib.Tactic.Common
import Netconf.Request.MessageId

/-!
# Fresh message ids

A fresh id is written with hexadecimal digits and hyphens only (`mem_ofRandom`), and it has
thirty-six characters, whatever the random octets are.
-/

namespace Netconf.Text

/-- A hexadecimal numeral has no characters but digits. -/
lemma exists_of_mem_hexadecimal {c : Char} {w n : ℕ} (h : c ∈ hexadecimal w n) :
    ∃ d < 16, c = hexDigit d := by
  induction w generalizing n with
  | zero => cases h
  | succ w ih =>
    rcases List.mem_append.1 h with h | h
    · exact ih h
    · exact ⟨n % 16, Nat.mod_lt n (by decide), List.mem_singleton.1 h⟩

end Netconf.Text

namespace Netconf.MessageId

open Netconf.Text

lemma length_digits (bs : List UInt8) : (digits bs).length = 2 * bs.length := by
  induction bs with
  | nil => rfl
  | cons b bs ih =>
    show (hexadecimal 2 b.toNat ++ digits bs).length = 2 * (bs.length + 1)
    rw [List.length_append, length_hexadecimal, ih]
    omega

lemma exists_of_mem_digits {c : Char} {bs : List UInt8} (h : c ∈ digits bs) :
    ∃ d < 16, c = hexDigit d := by
  obtain ⟨b, -, hb⟩ := List.mem_flatMap.1 h
  exact exists_of_mem_hexadecimal hb

/-- A fresh id has five groups of digits and four hyphens. -/
lemma length_ofRandom (random : Vector UInt8 16) : (ofRandom random).length = 36 := by
  have hlength : (stamp random).toList.length = 16 := Vector.length_toList
  unfold ofRandom grouped
  simp only [List.length_append, List.length_cons, length_digits, List.length_take,
    List.length_drop, hlength]
  decide

/-- A fresh id has no characters but digits and hyphens. -/
lemma mem_ofRandom {c : Char} {random : Vector UInt8 16} (h : c ∈ ofRandom random) :
    c = '-' ∨ ∃ d < 16, c = hexDigit d := by
  unfold ofRandom grouped at h
  simp only [List.mem_append, List.mem_cons] at h
  rcases h with (((h | h | h) | h | h) | h | h) | h | h
  all_goals first
    | exact Or.inl h
    | exact Or.inr (exists_of_mem_digits h)

end Netconf.MessageId
