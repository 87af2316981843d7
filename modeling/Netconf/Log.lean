/-!
# Log entries

What an operation reports besides its result. An operation that reports something returns a
`Logged` value: its entries in order together with its result.
-/

namespace Netconf

/-- How weighty an entry is. -/
inductive Level where
  | debug
  | warning
  | error
  deriving DecidableEq

/-- The part of the library that an entry comes from. -/
inductive Component where
  | framing
  | message
  | reply
  deriving DecidableEq

/-- One report. -/
structure LogEntry where
  level : Level
  component : Component
  text : List Char
  deriving DecidableEq

/-- A result together with what was reported on the way to it. -/
structure Logged (α : Type) where
  entries : List LogEntry
  result : α
  deriving DecidableEq

namespace Logged

variable {α β ε ε' : Type}

/-- A result that nothing was reported on. -/
def silent (a : α) : Logged α := ⟨[], a⟩

/-- A result with one entry. -/
def noting (entry : LogEntry) (a : α) : Logged α := ⟨[entry], a⟩

/-- Entries in front of what was reported. -/
def after (entries : List LogEntry) (x : Logged α) : Logged α := ⟨entries ++ x.entries, x.result⟩

/-- Goes on with a success, keeping what was reported; an error stays. -/
def andThen (x : Logged (Except ε α)) (f : α → Logged (Except ε β)) : Logged (Except ε β) :=
  match x.result with
  | .error e => ⟨x.entries, .error e⟩
  | .ok a => (f a).after x.entries

/-- The same report with an error of another kind. -/
def mapError (f : ε → ε') (x : Logged (Except ε α)) : Logged (Except ε' α) :=
  ⟨x.entries, x.result.mapError f⟩

@[simp] theorem entries_after (entries : List LogEntry) (x : Logged α) :
    (x.after entries).entries = entries ++ x.entries := rfl

@[simp] theorem result_after (entries : List LogEntry) (x : Logged α) :
    (x.after entries).result = x.result := rfl

/-- The result of a chain depends on the results alone. -/
theorem result_andThen (x : Logged (Except ε α)) (f : α → Logged (Except ε β)) :
    (x.andThen f).result = x.result.bind fun a => (f a).result := by
  unfold andThen
  cases x.result <;> rfl

/-- A chain depends on how it goes on after a success alone. -/
theorem andThen_congr {x : Logged (Except ε α)} {f g : α → Logged (Except ε β)}
    (h : ∀ a, x.result = .ok a → f a = g a) : x.andThen f = x.andThen g := by
  obtain ⟨entries, e | a⟩ := x
  · rfl
  · exact congrArg (after entries) (h a rfl)

/-- Another kind of error can be given before or after going on. -/
theorem mapError_andThen (g : ε → ε') (x : Logged (Except ε α)) (f : α → Logged (Except ε β)) :
    (x.andThen f).mapError g = (x.mapError g).andThen fun a => (f a).mapError g := by
  obtain ⟨entries, e | a⟩ := x
  · rfl
  · rfl

theorem mapError_mapError {ε'' : Type} (f : ε → ε') (g : ε' → ε'') (x : Logged (Except ε α)) :
    (x.mapError f).mapError g = x.mapError (g ∘ f) := by
  obtain ⟨entries, e | a⟩ := x
  · rfl
  · rfl

end Logged

end Netconf
