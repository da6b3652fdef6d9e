import FederatedMetrics.Proofs.Mapping.Lookups
import FederatedMetrics.Workspace.Operation

/-!
# Look-ups through one resolver

Look-ups through one resolver answer what the store would have answered to each of them, and the counters
of the workspace tell how many names were asked for: a miss for each, a hit for every other look-up. The
store is not needed for a name that has been looked up before.
-/

namespace FederatedMetrics

/-- What the store answers to a look-up: a mapping, or its property for a display category. -/
def MappingSource.storeAnswer (source : MappingSource) (lookup : String × Option String) :
    Except Failure (PropertyMapping ⊕ Property) :=
  match lookup.2 with
  | none => (source.store.get source.projectId lookup.1).map .inl
  | some displayCategory =>
      (source.store.resolve source.projectId lookup.1 displayCategory).map .inr

namespace Workspace

open Resolving

variable {source other : MappingSource} {r : Resolver}

/-- A look-up is answered as by the store, and the resolver has looked up the name afterwards. -/
theorem lookupAll_cons (h : r.Coherent source) (lookup : String × Option String)
    (rest : List (String × Option String)) :
    lookupAll source r (lookup :: rest) =
      (source.storeAnswer lookup :: (lookupAll source (source.lookup lookup.1 r).2 rest).1,
        (lookupAll source (source.lookup lookup.1 r).2 rest).2) := by
  obtain ⟨name, _ | displayCategory⟩ := lookup
  · have hanswer := (MappingSource.run_mapping h name).1
    have hlater := source.later_mapping name r
    rw [lookupAll, run_map, hanswer, hlater]
    rfl
  · have hanswer := (source.transparent_resolve name displayCategory r h).1
    have hlater := source.later_resolve name displayCategory r
    rw [MappingSource.result_resolve] at hanswer
    rw [lookupAll, run_map, hanswer, hlater]
    rfl

/-- Look-ups are answered as by the store, one by one. -/
theorem lookupAll_eq (h : r.Coherent source) (lookups : List (String × Option String)) :
    lookupAll source r lookups =
      (lookups.map source.storeAnswer, source.lookups (lookups.map (·.1)) r) := by
  induction lookups generalizing r with
  | nil => rfl
  | cons lookup rest ih =>
      rw [lookupAll_cons h, ih (MappingSource.lookup_spec h lookup.1).2]
      rfl

/-- Sources that look a name up alike answer alike to it. -/
theorem lookupAll_congr {lookup : String × Option String}
    (h : other.lookup lookup.1 r = source.lookup lookup.1 r) :
    lookupAll other r [lookup] = lookupAll source r [lookup] := by
  have hmapping : (other.mapping lookup.1).run.run r = (source.mapping lookup.1).run.run r := by
    simp only [MappingSource.mapping, ExceptT.run_mk, StateT.run, h]
  obtain ⟨name, _ | displayCategory⟩ := lookup
  · rw [lookupAll, lookupAll, run_map, run_map, hmapping]
    rfl
  · rw [lookupAll, lookupAll, run_map, run_map, MappingSource.resolve, MappingSource.resolve,
      run_bind, run_bind, hmapping]
    rfl

/-- Look-ups through a fresh resolver are answered as by the store and counted: a miss for every
distinct name and a hit for the others. The resolver has read each of the names once from the store, and
afterwards answers to them without it. -/
theorem resolver_transparent (w : Workspace) (projectId : Int)
    (lookups : List (String × Option String)) :
    ∃ r, lookupAll (w.source projectId) .fresh lookups =
        (lookups.map (w.source projectId).storeAnswer, r) ∧
      w.resolver projectId lookups =
        (lookups.map (w.source projectId).storeAnswer, { w with counters := { w.counters with
          cacheHits :=
            w.counters.cacheHits + (lookups.length - (lookups.map (·.1)).toFinset.card)
          cacheMisses := w.counters.cacheMisses + (lookups.map (·.1)).toFinset.card } }) ∧
      r.Served (w.source projectId) (lookups.map (·.1)) ∧
      ∀ lookup : String × Option String, lookup.1 ∈ lookups.map (·.1) → ∀ other : MappingSource,
        lookupAll other r [lookup] = lookupAll (w.source projectId) r [lookup] := by
  have hall := lookupAll_eq (Resolver.coherent_fresh (w.source projectId)) lookups
  have hserved := (Resolver.served_fresh (w.source projectId)).lookups (lookups.map (·.1))
  rw [List.nil_append] at hserved
  refine ⟨_, hall, ?_, hserved, ?_⟩
  · have hmisses := hserved.misses_eq_card
    have htotal := hserved.total_eq
    rw [List.length_map] at htotal
    have hhits : ((w.source projectId).lookups (lookups.map (·.1)) .fresh).hits =
        lookups.length - (lookups.map (·.1)).toFinset.card := by
      omega
    rw [resolver, hall]
    simp only [Counters.addLookups, hhits, hmisses]
  · intro lookup hlookup other
    obtain ⟨found, hfound⟩ :=
      MappingSource.lookup_of_mem_loaded ((hserved.mem_loaded_iff lookup.1).mpr hlookup)
    exact lookupAll_congr ((hfound other).trans (hfound _).symm)

/-- A workspace with a mapping for the city of a visit. -/
def visited : Workspace :=
  { fresh (fun _ => none) (.all none) .standard fun n => ⟨BitVec.ofNat 128 n⟩ with
    mappings := [⟨⟨0⟩, 1, "Town", "town", [⟨.events, "visits", "", "city", .categorical, ""⟩], .zero⟩] }

/-- Five look-ups of two names, one of which is unknown, come to two misses and three hits. The unknown
name is answered without the store as well. -/
theorem resolver_transparent_town :
    ∃ r, (visited.resolver 1 [("town", some "visits"), ("country", none), ("town", some "orders"),
        ("country", some "visits"), ("town", some "visits")]) =
      ([.ok (.inr ⟨.events, "visits", "", "city", .categorical, ""⟩),
        .error (.mappingNotFound "country"), .error (.uncovered "town" "orders"),
        .error (.mappingNotFound "country"),
        .ok (.inr ⟨.events, "visits", "", "city", .categorical, ""⟩)],
        { visited with counters := { Counters.zero with cacheHits := 3, cacheMisses := 2 } }) ∧
      lookupAll ⟨[], 1, visited.zones⟩ r [("country", none)] =
        lookupAll (visited.source 1) r [("country", none)] := by
  obtain ⟨r, -, hanswers, -, hrepeated⟩ := visited.resolver_transparent 1
    [("town", some "visits"), ("country", none), ("town", some "orders"),
      ("country", some "visits"), ("town", some "visits")]
  exact ⟨r, hanswers, hrepeated _ (by decide) ⟨[], 1, visited.zones⟩⟩

end Workspace

end FederatedMetrics
