import FederatedMetrics.Http.Target

/-!
# Routes

Every path belongs to one resource at most, and every resource knows the methods that it takes. A
method to read comes with one that reads without a body.
-/

namespace FederatedMetrics.Http

/-- What a path stands for, with its parameters as they are written. -/
inductive Resource where
  | health
  | ready
  | metrics
  | query (project : String)
  | filterValues (project : String)
  | mappings (project : String)
  | commonMappings (project : String)
  | mapping (project id : String)
  | derivedMetrics (project : String)
  | derivedMetric (project id : String)
deriving DecidableEq, Repr

/-- The resource of a project. -/
def Resource.ofProject? (project : String) : List String → Option Resource
  | ["query"] => some (.query project)
  | ["filter_values"] => some (.filterValues project)
  | ["property_mappings"] => some (.mappings project)
  | ["property_mappings", last] =>
      if last = "common_properties" ∨ last = "commom_properties" then some (.commonMappings project)
      else if last = "" then none
      else some (.mapping project last)
  | ["derived_metrics"] => some (.derivedMetrics project)
  | ["derived_metrics", last] => if last = "" then none else some (.derivedMetric project last)
  | _ => none

def Resource.ofSegments? : List String → Option Resource
  | ["health"] => some .health
  | ["ready"] => some .ready
  | ["metrics"] => some .metrics
  | "api" :: "v1" :: "projects" :: project :: "kpi" :: rest =>
      if project = "" then none else Resource.ofProject? project rest
  | _ => none

/-- The methods that resources take. -/
inductive Method where
  | get
  | post
  | delete
deriving DecidableEq, Repr

/-- The method of a request and whether its answer has a body. -/
def Method.ofName? (name : String) : Option (Method × Bool) :=
  if name = "GET" then some (.get, true)
  else if name = "HEAD" then some (.get, false)
  else if name = "POST" then some (.post, true)
  else if name = "DELETE" then some (.delete, true)
  else none

def Resource.methods : Resource → List Method
  | .health => [.get]
  | .ready => [.get]
  | .metrics => [.get]
  | .query _ => [.post]
  | .filterValues _ => [.post]
  | .mappings _ => [.post, .get]
  | .commonMappings _ => [.post]
  | .mapping _ _ => [.delete]
  | .derivedMetrics _ => [.post, .get]
  | .derivedMetric _ _ => [.delete]

end FederatedMetrics.Http
