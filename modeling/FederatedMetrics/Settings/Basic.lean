import FederatedMetrics.Settings.Flag
import FederatedMetrics.Settings.SocketAddress
import FederatedMetrics.Failure
import FederatedMetrics.Executor

/-!
# Settings

The settings of a process come from named texts. Every setting has a default, and the first one that
is invalid is reported.
-/

namespace FederatedMetrics

inductive LogFormat where
  | text
  | json
deriving DecidableEq, Repr

def LogFormat.name : LogFormat → String
  | .text => "text"
  | .json => "json"

/-- The settings of a process. The time limit is in seconds. -/
structure Settings where
  listenAddress : SocketAddress
  databaseUrl : Option String
  queryConcurrency : Nat
  queryTimeout : Option Nat
  optimisedProfileFilter : Bool
  optimisedEventUserFilter : Bool
  logFormat : LogFormat
deriving DecidableEq, Repr

namespace Settings

/-- An unsigned number of 64 bits, with an optional plus sign. -/
def unsigned? (raw : String) : Option Nat :=
  let digits :=
    match raw.toList with
    | '+' :: rest => rest
    | cs => cs
  let n := Decimal.natOfDigits digits
  if digits.isEmpty || !digits.all Decimal.isDigit || Nat.pow 2 64 ≤ n then none else some n

/-- A setting with a default for its absence. -/
def read {α : Type} (lookup : String → Option String) (key : String) (otherwise : α)
    (ofRaw? : String → Option α) : Except Failure α :=
  match lookup key with
  | none => .ok otherwise
  | some raw =>
      match ofRaw? raw with
      | some value => .ok value
      | none => .error (.invalidSetting key raw)

def concurrency? (raw : String) : Option Nat :=
  match unsigned? raw with
  | some n => if 0 < n then some n else none
  | none => none

/-- A time limit in seconds, where zero is none. -/
def timeout? (raw : String) : Option (Option Nat) :=
  (unsigned? raw).map fun n => if n = 0 then none else some n

def logFormat? (raw : String) : Option LogFormat :=
  if raw = "" ∨ raw = "text" then some .text
  else if raw = "json" then some .json
  else none

/-- Read all settings. -/
def ofLookup (lookup : String → Option String) : Except Failure Settings := do
  let listenAddress ← read lookup "LISTEN_ADDR" .standard SocketAddress.ofText?
  let databaseUrl := (lookup "DATABASE_URL").filter fun url => !Text.isBlankText url
  let queryConcurrency ← read lookup "QUERY_CONCURRENCY" 2 concurrency?
  let queryTimeout ← read lookup "QUERY_TIMEOUT_SECS" none timeout?
  let optimisedProfileFilter ← read lookup "OPTIMISED_PROFILE_FILTER" false flag?
  let optimisedEventUserFilter ← read lookup "OPTIMISED_EVENT_USER_FILTER" false flag?
  let logFormat ← read lookup "LOG_FORMAT" .text logFormat?
  return ⟨listenAddress, databaseUrl, queryConcurrency, queryTimeout, optimisedProfileFilter,
    optimisedEventUserFilter, logFormat⟩

/-- The options with which groups are executed unless a request changes them. -/
def executionOptions (s : Settings) : ExecutionOptions :=
  ⟨s.optimisedProfileFilter, s.optimisedEventUserFilter, s.queryConcurrency,
    s.queryTimeout.map fun seconds => seconds * 1000⟩

end Settings

end FederatedMetrics
