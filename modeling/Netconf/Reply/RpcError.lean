import Netconf.Text.Quoted

/-!
# Reported errors

An error that a server reports in a reply. Whether it is fatal depends on its severity and on the
caller, who may count warnings as errors.
-/

namespace Netconf

open Netconf.Text

/-- An error that a server reports. A field that the server leaves out is empty. -/
structure RpcError where
  type : List Char
  tag : List Char
  severity : List Char
  path : List Char
  message : List Char
  /-- The details as an XML fragment, if there are any. -/
  info : Option (List Char)
  deriving DecidableEq

namespace RpcError

/-- An error with nothing said about it. -/
def blank : RpcError := ⟨[], [], [], [], [], none⟩

/-- Whether the error is fatal whatever the caller says. -/
def isFatal (e : RpcError) : Bool := e.severity == "error".toList

/-- Whether the error is fatal to a caller who counts warnings as errors or does not. -/
def isFatalTo (e : RpcError) (warningsCount : Bool) : Bool := e.isFatal || warningsCount

/-- The error in a line. -/
def summary (e : RpcError) : List Char :=
  "netconf rpc [".toList ++ e.severity ++ "] '".toList ++ e.message ++ ['\x27']

/-- The error in a line that shows unusual characters. -/
def inspected (e : RpcError) : List Char :=
  "RPCError(tag=".toList ++ quoted e.tag ++ ", severity=".toList ++ quoted e.severity ++
    ", message=".toList ++ quoted e.message ++ [')']

/-- The fields of an error by which it can be changed. -/
inductive Field where
  | type
  | tag
  | severity
  | path
  | message
  | info
  deriving DecidableEq

/-- The error with another value in a field. Only the details can be taken away; without a value
the other fields become empty. -/
def set (e : RpcError) (field : Field) (value : Option (List Char)) : RpcError :=
  match field with
  | .type => { e with type := value.getD [] }
  | .tag => { e with tag := value.getD [] }
  | .severity => { e with severity := value.getD [] }
  | .path => { e with path := value.getD [] }
  | .message => { e with message := value.getD [] }
  | .info => { e with info := value }

/-- The first error that is fatal to the caller. -/
def firstFatal? (errors : List RpcError) (warningsCount : Bool) : Option RpcError :=
  errors.find? (·.isFatalTo warningsCount)

/-- Where the first error stands that is fatal to the caller. -/
def firstFatalIndex? (errors : List RpcError) (warningsCount : Bool) : Option Nat :=
  errors.findIdx? (·.isFatalTo warningsCount)

end RpcError

end Netconf
