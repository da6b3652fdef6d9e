import FederatedMetrics.Query.Basic

/-!
# Queries as JSON

Every field may be written in full or in a short form. Decoding reaches into definitions as deep as
the nesting allowance goes.
-/

namespace FederatedMetrics

namespace Granularity

def encode (g : Granularity) : Json := .str g.name

/-- A granularity by name, where null and the empty text stand for none. -/
def decodeOptional : Json.Decoder (Option Granularity) := fun nesting value => do
  match ← Json.nullable Json.text nesting value with
  | none => return none
  | some s =>
      if s = "" then return none
      else (ofName? s).elim (.error .mismatch) fun g => .ok (some g)

end Granularity

namespace QueryType

def name : QueryType → String
  | .standard => ""
  | .derived => "derived"

def names : List (String × QueryType) :=
  [("", .standard), ("static", .standard), ("custom", .standard), ("derived", .derived)]

def encode (t : QueryType) : Json := .str t.name

def decode : Json.Decoder QueryType := Json.choice names

end QueryType

mutual

def Query.encode : Query → Json
  | ⟨category, displayCategory, metrics, filters, groupBys, first, last, granularity, queryType,
      name, aliasName, timezone, definition⟩ =>
    .obj ([("category", category.encode), ("display_category", .str displayCategory),
        ("metrics", .arr (metrics.map Json.str)),
        ("filters", .arr (filters.map Filter.encode)),
        ("group_bys", .arr (groupBys.map GroupBy.encode)),
        ("from", .int first), ("to", .int last)]
      ++ (match granularity with
          | none => []
          | some g => [("group_by_timestamp", g.encode)])
      ++ [("query_type", queryType.encode), ("name", .str name), ("alias_name", .str aliasName),
        ("timezone", .str timezone)]
      ++ (match definition with
          | none => []
          | some group => [("definition", group.encode)]))

def QueryGroup.encode : QueryGroup → Json
  | ⟨className, formula, queries, globalFilters, globalGroupBys, displayResultAs⟩ =>
    .obj ([("class", .str className), ("formula", .str formula),
        ("queries", .arr (encodeQueries queries)),
        ("global_filters", .arr (globalFilters.map Filter.encode)),
        ("global_group_bys", .arr (globalGroupBys.map GroupBy.encode))]
      ++ (if displayResultAs = "" then []
          else [("display_result_as", .str displayResultAs)]))

def encodeQueries : List Query → List Json
  | [] => []
  | query :: rest => query.encode :: encodeQueries rest

end

/-- Decode a query with a decoder for the definition inside. -/
def Query.decodeWith (definition : Json.Decoder QueryGroup) : Json.Decoder Query :=
  Json.record 13 fun f =>
    Query.mk <$> f.required 0 ["category", "ca"] Category.decode
      <*> f.required 1 ["display_category", "dc"] Json.text
      <*> f.withDefault 2 ["metrics", "me"] (Json.listOf Json.text) []
      <*> f.withDefault 3 ["filters", "fil"] (Json.listOf Filter.decode) []
      <*> f.withDefault 4 ["group_bys", "gBy"] (Json.listOf GroupBy.decode) []
      <*> f.withDefault 5 ["from", "fr"] Json.int64 0
      <*> f.withDefault 6 ["to"] Json.int64 0
      <*> f.withDefault 7 ["group_by_timestamp", "gbt"] Granularity.decodeOptional none
      <*> f.withDefault 8 ["query_type", "qt"] QueryType.decode .standard
      <*> f.withDefault 9 ["name", "na"] Json.text ""
      <*> f.withDefault 10 ["alias_name", "an"] Json.text ""
      <*> f.withDefault 11 ["timezone", "tz"] Json.text ""
      <*> f.withDefault 12 ["definition"] (Json.nullable definition) none

/-- Decode a group with a decoder for its members. -/
def QueryGroup.decodeWith (query : Json.Decoder Query) : Json.Decoder QueryGroup :=
  Json.record 6 fun f =>
    QueryGroup.mk <$> f.withDefault 0 ["class", "cl"] Json.text ""
      <*> f.withDefault 1 ["formula", "for"] Json.text ""
      <*> f.withDefault 2 ["queries", "qG"] (Json.listOf query) []
      <*> f.withDefault 3 ["global_filters", "gFil"] (Json.listOf Filter.decode) []
      <*> f.withDefault 4 ["global_group_bys", "gGBy"] (Json.listOf GroupBy.decode) []
      <*> f.withDefault 5 ["display_result_as"] Json.text ""

/-- Decode a group with at most a number of definitions inside each other. -/
def QueryGroup.decodeWithin : Nat → Json.Decoder QueryGroup
  | 0 => fun _ document => Json.tooDeep document
  | depth + 1 => decodeWith (Query.decodeWith (decodeWithin depth))

/-- Decode a group. A definition inside another needs nesting of its own, so the allowance bounds the
number of definitions too. -/
def QueryGroup.decode : Json.Decoder QueryGroup := fun nesting => decodeWithin nesting nesting

def Query.decode : Json.Decoder Query := fun nesting =>
  decodeWith (QueryGroup.decodeWithin nesting) nesting

theorem encodeQueries_eq_map (queries : List Query) :
    encodeQueries queries = queries.map Query.encode := by
  induction queries with
  | nil => simp [encodeQueries]
  | cons query rest ih => simp [encodeQueries, ih]

end FederatedMetrics
