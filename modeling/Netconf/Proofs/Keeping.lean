import Mathlib.Data.List.InsertIdx
import Netconf.Reply.Held

/-!
# Changing replies that are kept

A kept reply goes through changes one at a time. Whatever the changes are, its errors become what
they would become in a plain list, and nothing else of the reply changes (`toReply_applyAll`). The
summaries that the errors bear move along with them and are never written anew
(`summaries_applyAll`): each still is that of an error as it was read or inserted
(`exists_of_mem_summaries`). Which error is fatal goes by what the errors say now, so that only a
change of a severity can change it in place (`firstFatalIndex?_modify`).
-/

namespace Netconf

/-- A change to the errors of a reply. -/
inductive Change where
  | insert (index : Option ℕ) (e : RpcError)
  | erase (index : ℕ)
  | edit (index : ℕ) (field : RpcError.Field) (value : Option (List Char))

namespace Change

/-- What a change makes of errors that are just listed. -/
def onErrors (errors : List RpcError) : Change → List RpcError
  | insert index e => errors.insertIdx (HeldReply.insertionIndex index errors.length) e
  | erase index => errors.eraseIdx index
  | edit index field value => errors.modify index (·.set field value)

/-- What a change makes of the summaries that errors bear. A field can be changed without any of
them being written anew. -/
def onSummaries (summaries : List (List Char)) : Change → List (List Char)
  | insert index e =>
    summaries.insertIdx (HeldReply.insertionIndex index summaries.length) e.summary
  | erase index => summaries.eraseIdx index
  | edit _ _ _ => summaries

end Change

/-- Mapping and changing one item go together where they do so for the item. -/
lemma map_modify {α β : Type} {g : α → β} {f : α → α} {k : β → β} (h : ∀ a, g (f a) = k (g a))
    (l : List α) (index : ℕ) : (l.modify index f).map g = (l.map g).modify index k := by
  refine List.ext_getElem? fun j => ?_
  rw [List.getElem?_map, List.getElem?_modify, List.getElem?_modify, List.getElem?_map]
  cases l[j]? with
  | none => rfl
  | some a =>
    by_cases hj : index = j
    · simp [hj, h]
    · simp [hj]

namespace HeldReply

/-- Makes a change. -/
def apply (h : HeldReply) : Change → HeldReply
  | .insert index e => h.insertError index e
  | .erase index => h.eraseError index
  | .edit index field value => h.editError index field value

/-- Makes changes one after the other. -/
def applyAll (h : HeldReply) (changes : List Change) : HeldReply := changes.foldl apply h

/-- The summaries that the errors bear. -/
def summaries (h : HeldReply) : List (List Char) := h.errors.map (·.firstSummary)

/-! ## A reply that is only kept -/

theorem toReply_ofReply (r : Reply) : (ofReply r).toReply = r := by
  simp [ofReply, toReply, Function.comp_def, HeldError.ofError]

theorem summaries_ofReply (r : Reply) : (ofReply r).summaries = r.errors.map RpcError.summary := by
  simp [ofReply, summaries, Function.comp_def, HeldError.ofError]

/-! ## One change -/

lemma toReply_apply (h : HeldReply) (change : Change) :
    (h.apply change).toReply = { h.toReply with errors := change.onErrors h.toReply.errors } := by
  cases change with
  | insert index e =>
    simp [apply, insertError, toReply, Change.onErrors, List.map_insertIdx, HeldError.ofError]
  | erase index => simp [apply, eraseError, toReply, Change.onErrors, List.eraseIdx_map]
  | edit index field value =>
    have hset := map_modify (f := fun e : HeldError => { e with error := e.error.set field value })
      (g := (·.error)) (k := (·.set field value)) (fun e => rfl) h.errors index
    simp only [apply, editError, toReply, Change.onErrors, hset]

lemma summaries_apply (h : HeldReply) (change : Change) :
    (h.apply change).summaries = change.onSummaries h.summaries := by
  cases change with
  | insert index e =>
    simp [apply, insertError, summaries, Change.onSummaries, List.map_insertIdx, HeldError.ofError]
  | erase index => simp [apply, eraseError, summaries, Change.onSummaries, List.eraseIdx_map]
  | edit index field value =>
    have hkept := map_modify (f := fun e : HeldError => { e with error := e.error.set field value })
      (g := (·.firstSummary)) (k := id) (fun e => rfl) h.errors index
    rw [List.modify_id] at hkept
    exact hkept

/-- An error that was inserted can be taken out again. -/
theorem eraseError_insertError (h : HeldReply) (index : ℕ) (e : RpcError)
    (hindex : index ≤ h.errors.length) : (h.insertError (some index) e).eraseError index = h := by
  rw [insertError, insertionIndex, Option.getD_some, Nat.min_eq_left hindex, eraseError]
  simp

/-- The error with a field changed is found where it was, and the other errors are unchanged. -/
theorem getElem?_errors_editError (h : HeldReply) (index j : ℕ) (field : RpcError.Field)
    (value : Option (List Char)) :
    (h.editError index field value).toReply.errors[j]? =
      (h.toReply.errors[j]?).map fun e => if index = j then e.set field value else e := by
  have happly := toReply_apply h (.edit index field value)
  rw [apply] at happly
  rw [happly]
  exact List.getElem?_modify _ _ _ _

/-! ## Any number of changes -/

/-- **A kept reply is a reply with a list of errors**, whatever changes are made to it. -/
theorem toReply_applyAll (h : HeldReply) (changes : List Change) :
    (h.applyAll changes).toReply =
      { h.toReply with errors := changes.foldl Change.onErrors h.toReply.errors } := by
  induction changes generalizing h with
  | nil => rfl
  | cons change changes ih =>
    have hstep := ih (h.apply change)
    rw [toReply_apply] at hstep
    exact hstep

/-- **Summaries move with their errors and are not written anew.** -/
theorem summaries_applyAll (h : HeldReply) (changes : List Change) :
    (h.applyAll changes).summaries = changes.foldl Change.onSummaries h.summaries := by
  induction changes generalizing h with
  | nil => rfl
  | cons change changes ih =>
    have hstep := ih (h.apply change)
    rw [summaries_apply] at hstep
    exact hstep

/-- A summary that is borne after a change was borne before, or is that of the inserted error. -/
lemma mem_onSummaries {summaries : List (List Char)} {change : Change} {s : List Char}
    (h : s ∈ change.onSummaries summaries) :
    s ∈ summaries ∨ ∃ index e, change = .insert index e ∧ s = e.summary := by
  cases change with
  | insert index e =>
    rcases (List.mem_insertIdx (Nat.min_le_right _ _)).1 h with rfl | h
    · exact Or.inr ⟨index, e, rfl, rfl⟩
    · exact Or.inl h
  | erase index => exact Or.inl (List.mem_of_mem_eraseIdx h)
  | edit index field value => exact Or.inl h

/-- After any number of changes, a summary was borne before or is that of an inserted error. -/
lemma mem_foldl_onSummaries {summaries : List (List Char)} {changes : List Change} {s : List Char}
    (h : s ∈ changes.foldl Change.onSummaries summaries) :
    s ∈ summaries ∨ ∃ index e, .insert index e ∈ changes ∧ s = e.summary := by
  induction changes generalizing summaries with
  | nil => exact Or.inl h
  | cons change changes ih =>
    rcases ih h with h | ⟨index, e, he, rfl⟩
    · rcases mem_onSummaries h with h | ⟨index, e, rfl, rfl⟩
      · exact Or.inl h
      · exact Or.inr ⟨index, e, List.mem_cons_self, rfl⟩
    · exact Or.inr ⟨index, e, List.mem_cons_of_mem _ he, rfl⟩

/-- **Each summary is that of an error as it was read or inserted**, whatever has become of the
error since. -/
theorem exists_of_mem_summaries {r : Reply} {changes : List Change} {s : List Char}
    (h : s ∈ ((ofReply r).applyAll changes).summaries) :
    (∃ e ∈ r.errors, s = e.summary) ∨ ∃ index e, .insert index e ∈ changes ∧ s = e.summary := by
  rw [summaries_applyAll, summaries_ofReply] at h
  refine (mem_foldl_onSummaries h).imp_left fun h => ?_
  obtain ⟨e, he, rfl⟩ := List.mem_map.1 h
  exact ⟨e, he, rfl⟩

end HeldReply

/-! ## Which error is fatal -/

/-- Whether an error is fatal goes by its severity. -/
lemma RpcError.isFatalTo_set {e : RpcError} {field : RpcError.Field} (h : field ≠ .severity)
    (value : Option (List Char)) (warningsCount : Bool) :
    (e.set field value).isFatalTo warningsCount = e.isFatalTo warningsCount := by
  cases field with
  | severity => exact absurd rfl h
  | _ => rfl

/-- **Only a change of a severity can make another error the fatal one.** -/
theorem firstFatalIndex?_modify {errors : List RpcError} {field : RpcError.Field}
    (h : field ≠ .severity) (index : ℕ) (value : Option (List Char)) (warningsCount : Bool) :
    RpcError.firstFatalIndex? (errors.modify index (·.set field value)) warningsCount =
      RpcError.firstFatalIndex? errors warningsCount := by
  have hmap := map_modify (g := (·.isFatalTo warningsCount)) (k := id)
    (fun e : RpcError => RpcError.isFatalTo_set h value warningsCount) errors index
  rw [List.modify_id] at hmap
  have hfind : ∀ l : List RpcError,
      l.findIdx? (·.isFatalTo warningsCount) = (l.map (·.isFatalTo warningsCount)).findIdx? id := by
    intro l
    rw [List.findIdx?_map]
    rfl
  rw [RpcError.firstFatalIndex?, RpcError.firstFatalIndex?, hfind, hmap, ← hfind]

end Netconf
