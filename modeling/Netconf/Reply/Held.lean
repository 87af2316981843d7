import Netconf.Reply.Basic

/-!
# Replies that are kept

A caller may keep a reply and change the errors in it. Each error goes on bearing the summary that
it had when it was made, whatever becomes of its fields.
-/

namespace Netconf

/-- An error in a kept reply. -/
structure HeldError where
  error : RpcError
  /-- The summary that the error was made with. -/
  firstSummary : List Char
  deriving DecidableEq

/-- An error with its summary. -/
def HeldError.ofError (e : RpcError) : HeldError := ⟨e, e.summary⟩

/-- A reply that is kept. The errors in `reply` are those it was read with. -/
structure HeldReply where
  reply : Reply
  errors : List HeldError
  deriving DecidableEq

namespace HeldReply

/-- Keeps a reply. -/
def ofReply (r : Reply) : HeldReply := ⟨r, r.errors.map HeldError.ofError⟩

/-- The reply with the errors that it has now. -/
def toReply (h : HeldReply) : Reply := { h.reply with errors := h.errors.map (·.error) }

/-- Where an item goes in a list of some length: to the index that is named, but not beyond the
end. -/
def insertionIndex (index : Option Nat) (length : Nat) : Nat := min (index.getD length) length

/-- Inserts an error at an index, or at the end. -/
def insertError (h : HeldReply) (index : Option Nat) (e : RpcError) : HeldReply :=
  { h with errors := h.errors.insertIdx (insertionIndex index h.errors.length) (.ofError e) }

/-- Removes the error at an index. -/
def eraseError (h : HeldReply) (index : Nat) : HeldReply :=
  { h with errors := h.errors.eraseIdx index }

/-- Changes a field of the error at an index. -/
def editError (h : HeldReply) (index : Nat) (field : RpcError.Field) (value : Option (List Char)) :
    HeldReply :=
  { h with errors := h.errors.modify index fun e => { e with error := e.error.set field value } }

end HeldReply

end Netconf
