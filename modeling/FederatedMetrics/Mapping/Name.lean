import FederatedMetrics.Text.Lowercase

/-!
# Names of property mappings

A mapping is found under the normal form of its display name: lower case, without blanks on the
sides, and with one underscore for every run of blanks inside.
-/

namespace FederatedMetrics.PropertyMapping

/-- Join words by underscores. -/
def joinWords : List (List Char) → List Char
  | [] => []
  | [word] => word
  | word :: rest => word ++ '_' :: joinWords rest

/-- The normal form of a display name. -/
def normalizeName (displayName : String) : String :=
  String.ofList (joinWords (Text.words (Text.lowerChars (Text.trimChars displayName.toList))))

example : normalizeName "  Deal   Stage " = "deal_stage" := by decide +kernel

end FederatedMetrics.PropertyMapping
