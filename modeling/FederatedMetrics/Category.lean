import FederatedMetrics.Json.Decoder

/-!
# Data categories

Every metric belongs to one of three kinds of data, and each kind has an executor of its own.
-/

namespace FederatedMetrics

/-- Behavioural events, profiles of entities, or documents of advertising channels. -/
inductive Category where
  | events
  | profiles
  | channels
deriving DecidableEq, Repr

namespace Category

def name : Category → String
  | .events => "events"
  | .profiles => "profiles"
  | .channels => "channels"

def names : List (String × Category) :=
  [("events", .events), ("event", .events), ("profiles", .profiles), ("profile", .profiles),
    ("channels", .channels), ("channel", .channels)]

def encode (c : Category) : Json := .str c.name

def decode : Json.Decoder Category := Json.choice names

end Category

end FederatedMetrics
