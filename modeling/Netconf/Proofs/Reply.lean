import Mathlib.Tactic.Common
import Netconf.Reply.Basic

/-!
# Replies and their documents

Reading a text as a reply succeeds exactly where the text without its outer blanks is a document
with the right root, and the reply says where each of its parts comes from.
-/

namespace Netconf.Reply

open Netconf.Outcome Netconf.Text Netconf.Xml

lemma rootOf_eq_ok_iff {s : List Char} {root : Element} :
    rootOf s = .ok root ↔ ∃ document, Document.ofText (.ofText (trim s)) = .ok document ∧
      document.root.name.base = rootName ∧ root = document.root := by
  unfold rootOf
  cases Document.ofText (.ofText (trim s)) with
  | error fault => simp
  | ok document =>
    dsimp only
    split_ifs with hname
    · simp [hname, eq_comm]
    · simp [hname]

lemma rootOf_eq_error_iff {s : List Char} {e : ParseError} :
    rootOf s = .error e ↔
      (∃ fault, Document.ofText (.ofText (trim s)) = .error fault ∧ e = ⟨.malformed fault, s⟩) ∨
        ∃ document, Document.ofText (.ofText (trim s)) = .ok document ∧
          document.root.name.base ≠ rootName ∧ e = ⟨.otherRoot document.root.name.base, s⟩ := by
  unfold rootOf
  cases Document.ofText (.ofText (trim s)) with
  | error fault => simp [eq_comm]
  | ok document =>
    dsimp only
    by_cases hname : document.root.name.base = rootName
    · simp [hname]
    · rw [if_neg hname, Except.error.injEq]
      constructor
      · intro he
        exact Or.inr ⟨document, rfl, hname, he.symm⟩
      · rintro (⟨fault, hfault, -⟩ | ⟨document', hdocument, -, rfl⟩)
        · cases hfault
        · cases hdocument
          rfl

/-- What is reported does not change the result. -/
lemma result_parse (s : List Char) : (parse s).result = ofText s := by
  unfold parse logged
  cases ofText s <;> rfl

lemma ofText_eq_ok_iff {s : List Char} {r : Reply} :
    ofText s = .ok r ↔ ∃ document, Document.ofText (.ofText (trim s)) = .ok document ∧
      document.root.name.base = rootName ∧
      r = ⟨[], errorsOf document.root, reportsSuccess s, s, payload s⟩ := by
  rw [ofText, map_eq_ok_iff]
  constructor
  · rintro ⟨root, hroot, rfl⟩
    obtain ⟨document, hdocument, hname, rfl⟩ := rootOf_eq_ok_iff.1 hroot
    exact ⟨document, hdocument, hname, rfl⟩
  · rintro ⟨document, hdocument, hname, rfl⟩
    exact ⟨document.root, rootOf_eq_ok_iff.2 ⟨document, hdocument, hname, rfl⟩, rfl⟩

lemma ofText_eq_error_iff {s : List Char} {e : ParseError} :
    ofText s = .error e ↔
      (∃ fault, Document.ofText (.ofText (trim s)) = .error fault ∧ e = ⟨.malformed fault, s⟩) ∨
        ∃ document, Document.ofText (.ofText (trim s)) = .ok document ∧
          document.root.name.base ≠ rootName ∧ e = ⟨.otherRoot document.root.name.base, s⟩ := by
  rw [← rootOf_eq_error_iff, ofText]
  cases rootOf s <;> simp [Except.map]

/-- A text of ASCII characters in units of sixteen bits, the low octet first. -/
def inUnits (s : List Char) : List Char := s.flatMap fun c => [c, Char.ofNat 0]

end Netconf.Reply
