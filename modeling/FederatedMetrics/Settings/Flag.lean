import FederatedMetrics.Text.Blank

/-!
# Flags

A flag is switched on or off by one of a few words in any case, with blanks around them.
-/

namespace FederatedMetrics.Settings

def onWords : List String := ["1", "true", "yes", "on"]

def offWords : List String := ["0", "false", "no", "off", ""]

def flag? (raw : String) : Option Bool :=
  let word := Text.asciiLower (Text.trim raw)
  if onWords.contains word then some true
  else if offWords.contains word then some false
  else none

end FederatedMetrics.Settings
