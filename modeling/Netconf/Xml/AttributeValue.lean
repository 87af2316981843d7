import Netconf.Xml.Dtd
import Netconf.Xml.LineEnd

/-!
# Attribute values

The value that an attribute has, from the parts it is written with: references are replaced by
what they stand for and white space by spaces. The text of an entity is read as parts again, so
entities may refer to further entities, but not to one that is being read.
-/

namespace Netconf.Xml

open Netconf.Outcome

variable [Encoding]

/-- A problem of a value and the reference or character it lies in. Without a place it counts for
the markup around the value. -/
structure ValueFault where
  problem : Problem
  place : Option (List Char)
  deriving DecidableEq

/-- The parts of a text that is read as a value, and the place where it cannot be read further. -/
def valueParts (s : List Char) : List ValuePart × Option (List Char) :=
  match s with
  | [] => ([], none)
  | c :: tail =>
    match h : scanValuePart (c :: tail) with
    | .error (.invalid rest) => ([], some rest)
    | .error _ => ([], some (c :: tail))
    | .ok (p, rest) =>
      have := length_of_scanValuePart h
      let (ps, stop) := valueParts rest
      (p :: ps, stop)
termination_by s.length
decreasing_by assumption

/-- The value of parts, given how references to entities are read. -/
def partsValue (entity : List Char → List Char → Except ValueFault (List Char)) :
    List ValuePart → Except ValueFault (List Char)
  | [] => .ok []
  | .char c :: ps => (partsValue entity ps).map ((if isSpace c then ' ' else c) :: ·)
  | .reference (.character n) place :: ps =>
    match charOfNumber? n with
    | none => .error ⟨.invalidCharacterNumber, some place⟩
    | some c => (partsValue entity ps).map (c :: ·)
  | .reference (.entity name) place :: ps => do
    let v ← entity name place
    let vs ← partsValue entity ps
    return v ++ vs

/-- The value of a text that is read as parts. -/
def textValue (origin : Origin)
    (entity : List Char → List Char → Except ValueFault (List Char)) (s : List Char) :
    Except ValueFault (List Char) := do
  let (ps, stop) := @valueParts origin.encoding s
  let v ← partsValue entity (origin.value ps)
  match stop with
  | none => return v
  | some place => .error ⟨.invalidToken, some place⟩

namespace Dtd

/-- The value that an entity stands for, in whose place the reference stands. The entities in
`opened` are being read; at most `budget` more can be. -/
def entityValue (d : Dtd) : (budget : Nat) → (opened : List (List Char)) →
    (name place : List Char) → Except ValueFault (List Char)
  | budget, opened, name, place =>
    match predefined? name with
    | some c => .ok [c]
    | none =>
      match d.entity? name with
      | none => if d.isComplete then .error ⟨.undefinedEntity, none⟩ else .ok []
      | some e =>
        if opened.contains name then .error ⟨.recursiveEntity, none⟩
        else
          match e with
          | .binary => .error ⟨.binaryEntity, some place⟩
          | .external => .error ⟨.externalEntityInAttribute, some place⟩
          | .internal text =>
            match budget with
            | 0 => .error ⟨.recursiveEntity, none⟩
            | budget + 1 =>
              (textValue .entity (d.entityValue budget (name :: opened)) text).mapError
                fun f => ⟨f.problem, none⟩

/-- How an entity is read while those in `opened` are. No more can be open than are declared. -/
def readEntity (d : Dtd) (opened : List (List Char)) (name place : List Char) :
    Except ValueFault (List Char) :=
  d.entityValue d.entities.length opened name place

end Dtd

/-- The words of a text between single spaces. -/
def collapseSpaces (s : List Char) : List Char :=
  match s with
  | [] => []
  | c :: s =>
    if c = ' ' then collapseSpaces s
    else
      let rest := collapseSpaces (s.dropWhile (· != ' '))
      c :: s.takeWhile (· != ' ') ++ (if rest = [] then [] else ' ' :: rest)
termination_by s.length
decreasing_by
  · exact Nat.lt_succ_self _
  · have := (List.dropWhile_suffix (l := s) (· != ' ')).length_le
    rw [List.length_cons]
    omega

/-- The value with its white space as its type has it. -/
def settleSpaces (isTokenized : Bool) (v : List Char) : List Char :=
  if isTokenized then collapseSpaces v else v

end Netconf.Xml
