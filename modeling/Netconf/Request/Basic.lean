import Netconf.Log
import Netconf.Request.MessageId
import Netconf.Request.Operation
import Netconf.Text.Utf8

/-!
# Requests

A request is a message id and the operations it carries, written as one XML element with the
operations in their order.
-/

namespace Netconf

open Netconf.Text

/-- The namespace of the base protocol. -/
def baseNamespace : List Char := "urn:ietf:params:xml:ns:netconf:base:1.0".toList

/-- A request. -/
structure Request where
  messageId : List Char
  operations : List Operation
  deriving DecidableEq

namespace Request

/-- The operations of a request, one after the other. -/
def body (r : Request) : List Char := r.operations.flatMap Operation.render

/-- The text of a request. -/
def render (r : Request) : List Char :=
  "<rpc message-id=\"".toList ++ r.messageId ++ "\" xmlns=\"".toList ++ baseNamespace ++
    "\">".toList ++ r.body ++ "</rpc>".toList

/-- The octets of a request. -/
def toOctets (r : Request) : List UInt8 := Utf8.encode r.render

/-- Why a request is not built. -/
inductive BuildError where
  /-- There is no message id, or it is empty. -/
  | noId
  /-- No fresh message id could be made. -/
  | shortage (s : MessageId.Shortage)
  deriving DecidableEq

/-- The report on a request that is not built. -/
def BuildError.message : BuildError → List Char
  | .noId => "message-id must not be empty".toList
  | .shortage s => s.message

/-- The entry on a request that was built. -/
def builtEntry (r : Request) : LogEntry :=
  ⟨.debug, .message, "built rpc message-id=".toList ++ r.messageId ++ " with ".toList ++
    decimal r.operations.length ++ " method(s)".toList⟩

/-- A request with the operations, under the id that the source of ids gives. -/
def build (operations : List Operation) (id : Except MessageId.Shortage (Option (List Char))) :
    Logged (Except BuildError Request) :=
  match id with
  | .error s => .silent (.error (.shortage s))
  | .ok none => .silent (.error .noId)
  | .ok (some []) => .silent (.error .noId)
  | .ok (some id) =>
    let r : Request := ⟨id, operations⟩
    .noting r.builtEntry (.ok r)

end Request

end Netconf
