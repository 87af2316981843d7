import Netconf.Reply.TagText

/-!
# The payload

What stands in the text of a reply between the start tag and the end tag of its root. In front of
the start tag there may be blanks, instructions, comments and document type declarations. The end
tag is the last one of the name `rpc-reply` in the text.
-/

namespace Netconf.Reply

open Netconf.Text

/-- The name of the root element. -/
def rootName : List Char := "rpc-reply".toList

/-- What stands in front of the last end tag of the root's name. -/
def beforeLastEndTag? : List Char → Option (List Char)
  | [] => none
  | c :: s =>
    match beforeLastEndTag? s with
    | some t => some (c :: t)
    | none => if startsWithEndTag rootName (c :: s) then some [] else none

/-- The payload of a root whose tag goes on like this behind its name. A root that is closed by its
only tag has an empty one. -/
def payloadBehindName? (s : List Char) : Option (List Char) :=
  if s.head?.any isWord then none
  else
    match behindBracket? s with
    | none => none
    | some (true, _) => some []
    | some (false, rest) => beforeLastEndTag? rest

/-- The payload of a root at the start of a text. -/
def rootPayload? : List Char → Option (List Char)
  | '<' :: s => (behindName rootName s).findSome? payloadBehindName?
  | _ => none

/-- Where the search for the root stands. -/
inductive Search where
  /-- In front of the root or of something that may precede it. -/
  | between
  /-- Inside an instruction. -/
  | inInstruction
  /-- Inside a comment. -/
  | inComment
  /-- Inside a document type declaration. -/
  | inDoctype
  deriving DecidableEq

/-- The search inside what an opening angle bracket begins, with the text to go on with. The root
itself is none of it. -/
def Search.entered? (s : List Char) : Option (Search × List Char) :=
  if "?".toList.isPrefixOf s then some (.inInstruction, s.drop 1)
  else if "!--".toList.isPrefixOf s then some (.inComment, s.drop 3)
  else if "!DOCTYPE".toList.isPrefixOf s then some (.inDoctype, s.drop 8)
  else none

theorem Search.length_of_entered? {s rest : List Char} {search : Search}
    (h : entered? s = some (search, rest)) : rest.length ≤ s.length := by
  unfold entered? at h
  split at h
  · simp only [Option.some.injEq, Prod.mk.injEq] at h
    simp [← h.2]
  split at h
  · simp only [Option.some.injEq, Prod.mk.injEq] at h
    simp [← h.2]
  split at h
  · simp only [Option.some.injEq, Prod.mk.injEq] at h
    simp [← h.2]
  · simp at h

/-- The characters at which something that precedes the root may end. -/
def Search.closing : Search → List Char
  | .between => []
  | .inInstruction => "?>".toList
  | .inComment => "-->".toList
  | .inDoctype => ">".toList

/-- The payload of the first root that the search finds. What precedes the root ends at the first
place where it may; an instruction or comment goes on to the next such place if there is no root
behind the first. -/
def Search.payload? (search : Search) (s : List Char) : Option (List Char) :=
  match s with
  | [] => none
  | c :: tail =>
    if search = .between then
      if isBlank c then payload? .between tail
      else if c = '<' then
        match h : entered? tail with
        | some (inner, rest) =>
          have := length_of_entered? h
          payload? inner rest
        | none => rootPayload? (c :: tail)
      else none
    else if search.closing.isPrefixOf (c :: tail) then
      let rest := tail.drop (search.closing.length - 1)
      match payload? .between rest with
      | some p => some p
      | none => if search = .inDoctype then none else payload? search tail
    else payload? search tail
termination_by s.length
decreasing_by all_goals simp only [List.length_cons, List.length_drop]; omega

/-- The payload of a reply, empty if its text has no root. -/
def payload (s : List Char) : List Char := (Search.payload? .between s).getD []

end Netconf.Reply
