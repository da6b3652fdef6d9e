import FederatedMetrics.Http.MediaType
import FederatedMetrics.Http.Route
import FederatedMetrics.Settings.Flag
import FederatedMetrics.Workspace.Operation

/-!
# The service

The service answers requests over a workspace. A request whose path, parameters or method do not fit
is turned away before anything is done or counted. A body that cannot be read is turned away too, but
for query groups that still counts as a request.
-/

namespace FederatedMetrics.Http

structure Request where
  method : String
  target : String
  headers : List (String × String)
  body : String
deriving DecidableEq, Repr

/-- The body of a response. -/
inductive Body where
  | nothing
  | json (value : Json)
  | text (s : String)
deriving Repr

structure Response where
  status : Nat
  body : Body
deriving Repr

/-- The version that the service reports. -/
def version : String := "0.1.0"

/-- The response to a request that is turned away. -/
def turnedAway (status : Nat) : Response := ⟨status, .nothing⟩

def success (value : Json) : Response := ⟨200, .json value⟩

/-- The response to a request about stored entities that has failed. -/
def failure (f : Failure) : Response :=
  ⟨f.status, .json (.obj [("error", .str f.message), ("code", .int f.status)])⟩

/-- The response with the outcome of an operation. -/
def respondWith {α : Type} (encode : α → Json) : Except Failure α → Response
  | .ok x => success (encode x)
  | .error f => failure f

/-! ## Reading requests -/

/-- The first header of a name in any case, if its value is visible ASCII. -/
def Request.header? (r : Request) (name : String) : Option String :=
  match r.headers.find? fun header => Text.asciiLower header.1 = name with
  | some header =>
      if header.2.toList.all fun c => c.toNat = 9 || (31 < c.toNat && c.toNat < 127) then
        some header.2
      else none
  | none => none

/-- Read the body of a request. -/
def Request.decodeBody {α : Type} (r : Request) (decoder : Json.Decoder α) : Except Failure α :=
  if !((r.header? "content-type").any isJsonType) then .error (.rejectedBody .contentType)
  else
    match Json.decodeText decoder r.body with
    | .ok x => .ok x
    | .error .mismatch => .error (.rejectedBody .shape)
    | .error .malformed => .error (.rejectedBody .text)

/-- What a client sends to create a mapping. -/
def decodeNewMapping : Json.Decoder (String × List Property) := Json.record 2 fun f =>
  Prod.mk <$> f.withDefault 0 ["display_name"] Json.text ""
    <*> f.withDefault 1 ["properties"] (Json.listOf Property.decode) []

/-- Whether a header switches a flag on. -/
def Request.switchesOn (r : Request) (name : String) : Bool :=
  ((r.header? name).bind Settings.flag?).getD false

/-- The options of a request: headers may switch shortcuts on. -/
def Request.options (r : Request) (defaults : ExecutionOptions) : ExecutionOptions :=
  { defaults with
    optimisedProfileFilter :=
      defaults.optimisedProfileFilter || r.switchesOn "x-optimised-profile-filter"
    optimisedEventUserFilter :=
      defaults.optimisedEventUserFilter || r.switchesOn "x-optimised-event-user-filter" }

/-! ## Writing responses -/

/-- An entry that is left out when there is nothing to say. -/
def entry (key : String) (value : Option Json) : List (String × Json) :=
  match value with
  | some value => [(key, value)]
  | none => []

def encodeTables (tables : List ResultTable) : Json := .arr (tables.map ResultTable.encode)

/-- The response with the outcome of a group. -/
def outcomeResponse (o : GroupOutcome) : Response :=
  ⟨o.status, .json <| .obj <|
    [("result", encodeTables o.results), ("status", .int o.status)]
      ++ entry "error" (o.failure.map fun f => .str f.message)
      ++ entry "combined" (o.combined.map encodeTables)
      ++ entry "combined_error" (o.combinedFailure.map fun f => .str f.message)⟩

/-- The response to a query whose body cannot be read. -/
def rejectedQuery (f : Failure) : Response :=
  ⟨f.status, .json <| .obj
    [("result", .arr []), ("status", .int f.status), ("error", .str f.message)]⟩

def deletedResponse (id : Uuid) : Json := .obj [("id", .str id.text), ("deleted", .bool true)]

def healthReport : Json := .obj [("status", .str "ok"), ("version", .str version)]

def readinessReport : Json :=
  .obj [("status", .str "ready"),
    ("checks", .obj [("database",
      .obj [("healthy", .bool true), ("message", .str "In-memory store")])])]

/-- The lines about one counter. -/
def counterText (name help : String) (value : Nat) : String :=
  "# HELP " ++ name ++ " " ++ help ++ "\n# TYPE " ++ name ++ " counter\n" ++ name ++ " "
    ++ toString value ++ "\n\n"

/-- The counters in the form in which they are collected. -/
def countersReport (c : Counters) : String :=
  counterText "kpi_query_groups_total" "Total number of query groups executed" c.groupsExecuted
    ++ counterText "kpi_query_groups_failed_total" "Total number of query groups that failed"
      c.groupsFailed
    ++ counterText "kpi_queries_executed_total" "Total number of member queries executed"
      c.queriesExecuted
    ++ counterText "kpi_mapping_cache_hits_total"
      "Property mapping lookups served from the per-group cache" c.cacheHits
    ++ counterText "kpi_mapping_cache_misses_total"
      "Property mapping lookups that reached the repository" c.cacheMisses
    ++ counterText "kpi_property_mappings_created_total"
      "Total number of property mappings created" c.mappingsCreated
    ++ counterText "kpi_requests_total" "Total number of KPI API requests processed" c.requests
    ++ "# HELP kpi_federation_info Build information\n# TYPE kpi_federation_info gauge\n"
    ++ "kpi_federation_info\x7bversion=\"" ++ version ++ "\"\x7d 1\n"

/-! ## Handling requests -/

/-- Handle a request that carries a body, once it has been read; a request with a body that cannot
be read is not counted. -/
def handleBody {α : Type} (w : Workspace) (r : Request) (decoder : Json.Decoder α)
    (handle : Workspace → α → Option Response × Workspace) : Option Response × Workspace :=
  match r.decodeBody decoder with
  | .error f => (some (failure f), w)
  | .ok x => handle w.countRequest x

/-- Handle a query group. -/
def handleQuery (w : Workspace) (r : Request) (projectId : Int) (combine : Bool) :
    Option Response × Workspace :=
  let w := w.countRequest
  match r.decodeBody QueryGroup.decode with
  | .error f => (some (rejectedQuery f), w)
  | .ok group =>
      let (outcome, w) := w.executeGroup projectId group combine (r.options w.options)
      (outcome.map outcomeResponse, w)

/-- The response to a look-up of filter values; there is none if an executor breaks down or never
answers. -/
def valuesResponse (reply : Reply (List String)) : Option Response :=
  reply.result?.map (respondWith fun values => .arr (values.map Json.str))

def handleMappings (w : Workspace) (r : Request) (projectId : Int) (method : Method) :
    Option Response × Workspace :=
  match method with
  | .get =>
      let ms := w.mappings.ofProject projectId
      (some (success (.arr (ms.map PropertyMapping.encode))), w.countRequest)
  | _ =>
      handleBody w r decodeNewMapping fun w (displayName, properties) =>
        let (result, w) := w.createMapping projectId displayName properties
        (some (respondWith PropertyMapping.encode result), w)

def handleDerivedMetrics (w : Workspace) (r : Request) (projectId : Int) (method : Method) :
    Option Response × Workspace :=
  match method with
  | .get =>
      let ms := w.derived.ofProject projectId
      (some (success (.arr (ms.map DerivedMetric.encode))), w.countRequest)
  | _ =>
      handleBody w r NewDerivedMetric.decode fun w request =>
        let (result, w) := w.createDerived projectId request
        (some (respondWith DerivedMetric.encode result), w)

/-- Go on with a parameter that has been read, or turn the request away. -/
def withParameter {α : Type} (w : Workspace) (parameter : Option α)
    (handle : α → Option Response × Workspace) : Option Response × Workspace :=
  match parameter with
  | some x => handle x
  | none => (some (turnedAway 400), w)

/-- Handle a request for a resource by a method that it takes. -/
def handle (w : Workspace) (r : Request) (query : String) (method : Method) :
    Resource → Option Response × Workspace
  | .health => (some (success healthReport), w)
  | .ready => (some (success readinessReport), w)
  | .metrics => (some ⟨200, .text (countersReport w.counters)⟩, w)
  | .query project =>
      withParameter w (projectId? project) fun projectId =>
        withParameter w (combineParameter? query) fun combine => handleQuery w r projectId combine
  | .filterValues project =>
      withParameter w (projectId? project) fun projectId =>
        handleBody w r FilterValuesRequest.decode fun w request =>
          (valuesResponse (request.lookup w.mappings w.registry projectId), w)
  | .mappings project =>
      withParameter w (projectId? project) fun projectId => handleMappings w r projectId method
  | .commonMappings project =>
      withParameter w (projectId? project) fun projectId =>
        handleBody w r (Json.listOf CommonRequest.decode) fun w requests =>
          let result := w.mappings.findCommon w.derived projectId requests
          (some (respondWith (fun ms => .arr (ms.map PropertyMapping.encode)) result), w)
  | .mapping project id =>
      withParameter w (projectId? project) fun projectId =>
        withParameter w (entityId? id) fun id =>
          let (result, w) := w.countRequest.deleteMapping projectId id
          (some (respondWith (fun _ => deletedResponse id) result), w)
  | .derivedMetrics project =>
      withParameter w (projectId? project) fun projectId => handleDerivedMetrics w r projectId method
  | .derivedMetric project id =>
      withParameter w (projectId? project) fun projectId =>
        withParameter w (entityId? id) fun id =>
          let (result, w) := w.countRequest.deleteDerived projectId id
          (some (respondWith (fun _ => deletedResponse id) result), w)

/-- Answer a request. There is no response if an executor breaks down or never answers. A request about
options is always answered. -/
def respond (w : Workspace) (r : Request) : Option Response × Workspace :=
  if r.method = "OPTIONS" then (some (turnedAway 200), w)
  else
    let target := Target.ofText r.target
    match Resource.ofSegments? target.segments with
    | none => (some (turnedAway 404), w)
    | some resource =>
        match Method.ofName? r.method with
        | none => (some (turnedAway 405), w)
        | some (method, hasBody) =>
            if !(resource.methods.contains method) then (some (turnedAway 405), w)
            else
              let (response, w) := handle w r target.query method resource
              if hasBody then (response, w)
              else (response.map fun response => { response with body := .nothing }, w)

end FederatedMetrics.Http
