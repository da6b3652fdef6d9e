import FederatedMetrics.Record.Basic
import FederatedMetrics.Query.Filter
import FederatedMetrics.Text.Blank

/-!
# Selecting records by filters

Filters apply in order. A filter that is joined by `or` is an alternative to those before it back to
the last one that is joined by `and`, and all groups of alternatives have to hold.
-/

namespace FederatedMetrics

/-- Compare two texts as numbers; a text that is no number compares with nothing. -/
def compareNumbers (holds : Float → Float → Bool) (actual expected : String) : Bool :=
  match Decimal.ofText? actual, Decimal.ofText? expected with
  | some a, some b => holds a b
  | _, _ => false

def Comparison.holds (c : Comparison) (actual expected : String) : Bool :=
  match c with
  | .equals => actual = expected
  | .notEqual => actual ≠ expected
  | .contains => Text.occursIn expected.toList actual.toList
  | .notContains => !Text.occursIn expected.toList actual.toList
  | .greaterThan => compareNumbers (fun a b => decide (b < a)) actual expected
  | .lesserThan => compareNumbers (fun a b => decide (a < b)) actual expected
  | .greaterThanOrEqual => compareNumbers (fun a b => decide (b ≤ a)) actual expected
  | .lesserThanOrEqual => compareNumbers (fun a b => decide (a ≤ b)) actual expected

/-- Whether a record satisfies one filter by itself. -/
def Filter.holds (f : Filter) (r : Record) : Bool :=
  f.comparison.holds (r.textOf f.propertyName) f.value

/-- Whether a record satisfies the filters after a group of alternatives of which one held or
none. -/
def satisfiesFrom (r : Record) (group : Bool) : List Filter → Bool
  | [] => group
  | f :: rest =>
      match f.connective with
      | .or => satisfiesFrom r (group || f.holds r) rest
      | .and => group && satisfiesFrom r (f.holds r) rest

/-- Whether a record satisfies a list of filters. The connective of the first does not matter. -/
def satisfies (r : Record) : List Filter → Bool
  | [] => true
  | f :: rest => satisfiesFrom r (f.holds r) rest

@[simp] theorem satisfies_nil (r : Record) : satisfies r [] = true := rfl

end FederatedMetrics
