/-!
# Operations

What a request asks a server to do, each written as an XML fragment. The texts that an operation
is given go into the fragment as they are.
-/

namespace Netconf

/-- An operation of a request. -/
inductive Operation where
  /-- A fragment that is ready to be sent. -/
  | raw (xml : List Char)
  /-- Locks a datastore. -/
  | lock (target : List Char)
  /-- Releases the lock of a datastore. -/
  | unlock (target : List Char)
  /-- Retrieves the configuration in a datastore. -/
  | getConfig (source : List Char)
  /-- Retrieves configuration and state that a filter lets through. -/
  | get (filterType filterBody : List Char)
  /-- Merges a configuration into a datastore, all of it or nothing. -/
  | editConfig (target config : List Char)
  deriving DecidableEq

namespace Operation

/-- An element without attributes around the content. -/
def element (name : String) (content : List Char) : List Char :=
  '<' :: name.toList ++ '>' :: content ++ "</".toList ++ name.toList ++ ['>']

/-- An element with nothing in it. -/
def emptyElement (name : List Char) : List Char := '<' :: name ++ "/>".toList

/-- The fragment of an operation. -/
def render : Operation → List Char
  | .raw xml => xml
  | .lock target => element "lock" (element "target" (emptyElement target))
  | .unlock target => element "unlock" (element "target" (emptyElement target))
  | .getConfig source => element "get-config" (element "source" (emptyElement source))
  | .get filterType filterBody =>
    element "get" ("<filter type=\"".toList ++ filterType ++ "\">".toList ++ filterBody ++
      "</filter>".toList)
  | .editConfig target config =>
    element "edit-config" ('\n' ::
      element "target" (emptyElement target) ++ '\n' ::
      element "default-operation" "merge".toList ++ '\n' ::
      element "error-option" "rollback-on-error".toList ++ '\n' ::
      element "config" config ++ ['\n'])

end Operation

end Netconf
