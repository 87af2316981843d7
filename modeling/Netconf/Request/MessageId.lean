import Netconf.Text.Numeral

/-!
# Message ids

The id that a reply is matched with its request by. A fresh id is made of sixteen random octets,
of which six bits are taken to mark it as a random id: four bits say version 4, two the variant.
-/

namespace Netconf.MessageId

open Netconf.Text

/-- The octets with the bits of the version and the variant set. -/
def stamp (random : Vector UInt8 16) : Vector UInt8 16 :=
  let version := (0x40 : UInt8) ||| random[6] &&& 0x0F
  let variant := (0x80 : UInt8) ||| random[8] &&& 0x3F
  (random.set 6 version).set 8 variant

/-- The hexadecimal digits of octets, two for each. -/
def digits (bs : List UInt8) : List Char := bs.flatMap fun b => hexadecimal 2 b.toNat

/-- The octets in groups of 8, 4, 4, 4 and 12 digits with hyphens between them. -/
def grouped (bs : List UInt8) : List Char :=
  digits (bs.take 4) ++ '-' :: digits ((bs.drop 4).take 2) ++ '-' :: digits ((bs.drop 6).take 2) ++
    '-' :: digits ((bs.drop 8).take 2) ++ '-' :: digits (bs.drop 10)

/-- The id made of random octets. -/
def ofRandom (random : Vector UInt8 16) : List Char := grouped (stamp random).toList

/-- Why there are no random octets. -/
inductive Shortage where
  /-- The operating system refuses them, with a number for the kind of failure. -/
  | system (number : Int) (message : List Char)
  /-- The platform has no source of them. -/
  | unsupported (message : List Char)
  /-- The source failed otherwise; the failure is handed on as it is. -/
  | failed (message : List Char)
  deriving DecidableEq

/-- The text of the failure itself. -/
def Shortage.detail : Shortage → List Char
  | .system number message =>
    "[Errno ".toList ++ signedDecimal number ++ "] ".toList ++ message
  | .unsupported message => message
  | .failed message => message

/-- The report on an id that could not be made. -/
def Shortage.message : Shortage → List Char
  | .failed message => message
  | s => "could not read random source: ".toList ++ s.detail

/-- A fresh id, from what the random source gives. -/
def fresh (random : Except Shortage (Vector UInt8 16)) : Except Shortage (List Char) :=
  random.map ofRandom

/-- The ids of a counter: decimal numerals from 101 on. -/
def counted (n : Nat) : List Char := decimal (101 + n)

end Netconf.MessageId
