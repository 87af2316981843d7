/-!
# Settings

Defaults that a caller need not repeat with every operation. They come from environment variables,
and explicit values go before them.
-/

namespace Netconf

/-- The environment: the value of each variable that is set. -/
abbrev Environment := List Char → Option (List Char)

/-- What operations fall back to where the caller leaves a choice open. -/
structure Settings where
  /-- The version of the base protocol that messages are framed for. It is kept as written and
  checked where it is used. -/
  baseVersion : List Char
  /-- Whether reported errors of any severity count as fatal. -/
  errorOnWarning : Bool
  /-- Whether the sizes of chunks are counted. -/
  strictFraming : Bool
  deriving DecidableEq

namespace Settings

/-- A flag is on when its value is the word "true" in any letter case; unset it is off. Only ASCII
letters have a lower case among the letters of that word. -/
def flag (value : Option (List Char)) : Bool :=
  value.any fun s => s.map Char.toLower == "true".toList

/-- The settings that an environment stands for. -/
def ofEnvironment (env : Environment) : Settings where
  baseVersion := (env "NETCONF_RPC_BASE_VERSION".toList).getD "1.1".toList
  errorOnWarning := flag (env "NETCONF_RPC_ERROR_ON_WARNING".toList)
  strictFraming := flag (env "NETCONF_RPC_STRICT_FRAMING".toList)

end Settings

/-- Explicit values for some of the settings. -/
structure SettingsPatch where
  baseVersion : Option (List Char)
  errorOnWarning : Option Bool
  strictFraming : Option Bool
  deriving DecidableEq

/-- The settings with the explicit values in place of their own. -/
def Settings.patch (s : Settings) (p : SettingsPatch) : Settings where
  baseVersion := p.baseVersion.getD s.baseVersion
  errorOnWarning := p.errorOnWarning.getD s.errorOnWarning
  strictFraming := p.strictFraming.getD s.strictFraming

end Netconf
