import FederatedMetrics.Json.Printer
import FederatedMetrics.Decimal.Reading

/-!
# Values as texts and as numbers

Keys and filters compare values as texts, sums read them as numbers. A string is its own text and
counts as a number when it is written like one; everything that is no number counts as zero.
-/

namespace FederatedMetrics.Json

/-- A string itself, and the JSON text of any other value. -/
def asText : Json → String
  | .str s => s
  | value => value.print

def asNumber : Json → Float
  | .int n => Decimal.ofInt n
  | .float x => x
  | .str s => (Decimal.ofText? s).getD 0.0
  | _ => 0.0

@[simp] theorem asText_str (s : String) : (str s).asText = s := rfl

@[simp] theorem asNumber_null : null.asNumber = 0.0 := rfl

end FederatedMetrics.Json
