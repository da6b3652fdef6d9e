import FederatedMetrics.Proofs.Plan.Broadcast
import FederatedMetrics.Proofs.Record.Selection

/-!
# What broadcast filters select

A resolved query has its own filters and behind them those that are broadcast to it. From the first
broadcast filter on that is joined by `and` they only narrow. The ones in front of it are alternatives to
the last group of the own filters, so a record may satisfy one of them in the place of that group.
-/

namespace FederatedMetrics

/-- What the filters of a resolved query are and which records satisfy them, where some filters are its
own and the others are broadcast to it. -/
structure ResolvedQuery.Selects (source : MappingSource) (own broadcast : List Filter)
    (r : ResolvedQuery) (resolvedOwn resolvedBroadcast : List Filter) : Prop where
  ownTo : List.Forall₂ (Filter.ResolvesTo source r.query.displayCategory) own resolvedOwn
  broadcastTo :
    List.Forall₂ (Filter.ResolvesTo source r.query.displayCategory) broadcast resolvedBroadcast
  filters_eq : r.query.filters = resolvedOwn ++ resolvedBroadcast
  satisfies_iff : ∀ record, satisfies record r.query.filters = true ↔
    satisfies record (resolvedOwn ++ leadingAlternatives resolvedBroadcast) = true ∧
      satisfies record (laterGroups resolvedBroadcast) = true
  own_or_alternative : ∀ record, satisfies record r.query.filters = true →
    satisfies record resolvedOwn = true ∨
      ∃ f ∈ leadingAlternatives resolvedBroadcast, f.holds record = true
  narrows : own = [] ∨ (∀ f ∈ broadcast.head?, f.connective = .and) →
    ∀ record, satisfies record r.query.filters = true → satisfies record resolvedOwn = true

/-- A resolved query selects by filters of its own and by broadcast ones. -/
def ResolvedQuery.SelectsBy (source : MappingSource) (own broadcast : List Filter)
    (r : ResolvedQuery) : Prop :=
  ∃ resolvedOwn resolvedBroadcast, r.Selects source own broadcast resolvedOwn resolvedBroadcast

/-- What the plan of a member selects: a direct member by its filters and the global ones, and every
sub-query of a derived member by its filters, those of the member and the global ones. -/
inductive Query.PlanSelects (source : MappingSource) (derived : DerivedStore) (group : QueryGroup)
    (q : Query) : Plan → Prop
  | direct {r : ResolvedQuery} (hdirect : q.isDerived = false)
      (hr : r.SelectsBy source q.filters group.globalFilters) :
      PlanSelects source derived group q (.direct r)
  | derived {definition : QueryGroup} {p : DerivedPlan} (hderived : q.isDerived = true)
      (hdefinition : q.DefinedBy derived source.projectId definition)
      (hp : List.Forall₂ (fun sub entry =>
        entry.2.SelectsBy source sub.filters (q.filters ++ group.globalFilters))
        definition.queries p.subQueries) :
      PlanSelects source derived group q (.derived p)

namespace MappingSource

variable {source : MappingSource} {derived : DerivedStore} {group : QueryGroup}

theorem connective_of_resolvesTo {displayCategory : String} {f resolved : Filter}
    (h : f.ResolvesTo source displayCategory resolved) : resolved.connective = f.connective := by
  cases h with
  | concrete _ => rfl
  | mapped _ _ => rfl

/-- The connective of the first filter is the same after resolving. -/
theorem head_connective_of_resolvesTo {displayCategory : String} {filters resolved : List Filter}
    (h : List.Forall₂ (Filter.ResolvesTo source displayCategory) filters resolved)
    (hhead : ∀ f ∈ filters.head?, f.connective = .and) :
    ∀ f ∈ resolved.head?, f.connective = .and := by
  cases h with
  | nil => exact hhead
  | cons hfirst _ =>
      intro f hf
      obtain rfl := Option.some.inj hf
      exact (connective_of_resolvesTo hfirst).trans (hhead _ rfl)

/-- A query that is resolved with broadcast filters behind its own selects by both. -/
theorem selectsBy_of_resolvesTo {q : Query} {own broadcast : List Filter} {groupBys : List GroupBy}
    {r : ResolvedQuery} (h : q.ResolvesTo source (own ++ broadcast) groupBys r) :
    r.SelectsBy source own broadcast := by
  have hcategory : r.query.displayCategory = q.displayCategory := by rw [h.rest]
  obtain ⟨resolvedOwn, resolvedBroadcast, hown, hbroadcast, hfilters⟩ :
      ∃ resolvedOwn resolvedBroadcast,
        List.Forall₂ (Filter.ResolvesTo source r.query.displayCategory) own resolvedOwn ∧
        List.Forall₂ (Filter.ResolvesTo source r.query.displayCategory) broadcast
          resolvedBroadcast ∧
        r.query.filters = resolvedOwn ++ resolvedBroadcast := by
    rw [hcategory]
    exact ⟨_, _, (List.forall₂_take_append _ _ _ h.filtersTo.flip).flip,
      (List.forall₂_drop_append _ _ _ h.filtersTo.flip).flip, (List.take_append_drop _ _).symm⟩
  have hsplit : ∀ record, satisfies record r.query.filters = true ↔
      satisfies record (resolvedOwn ++ leadingAlternatives resolvedBroadcast) = true ∧
        satisfies record (laterGroups resolvedBroadcast) = true := by
    intro record
    rw [hfilters, satisfies_append, Bool.and_eq_true]
  refine ⟨resolvedOwn, resolvedBroadcast, hown, hbroadcast, hfilters, hsplit, ?_, ?_⟩
  · intro record hrecord
    exact satisfies_of_alternatives (fun f => connective_of_mem_leadingAlternatives)
      ((hsplit record).mp hrecord).1
  · rintro (rfl | hhead) record hrecord
    · rw [List.forall₂_nil_left_iff.mp hown]
      exact satisfies_nil record
    · have hnone := leadingAlternatives_of_head (head_connective_of_resolvesTo hbroadcast hhead)
      simpa [hnone] using ((hsplit record).mp hrecord).1

/-- Broadcast filters only narrow, but for the alternatives among them in front of the first one that is
joined by `and`: a record that satisfies the filters of a planned query satisfies the query's own filters
or one of these alternatives, and its own filters if there are none. -/
theorem broadcast_narrows_or_alternative {plans : List Plan}
    (hplans : ((source.normalize derived group).run.run .fresh).1 = .ok plans) :
    List.Forall₂ (Query.PlanSelects source derived group) group.queries plans := by
  have hplanned := (((yields_normalize source derived group).result_eq_ok_iff plans).mp hplans).2
  refine hplanned.imp fun q plan hq => ?_
  cases hq with
  | direct hdirect hr => exact .direct hdirect (selectsBy_of_resolvesTo hr)
  | derived hderived hp =>
      refine .derived hderived hp.definedBy (hp.subQueriesTo.imp fun sub entry hentry => ?_)
      have hresolved := hentry.resolvesTo
      rw [List.append_assoc] at hresolved
      exact selectsBy_of_resolvesTo hresolved

/-- A project with a mapping for the city of a visit. -/
def townSource : MappingSource :=
  ⟨[⟨⟨0⟩, 1, "Town", "town", [⟨.events, "visits", "", "city", .categorical, ""⟩], .zero⟩], 1, fun _ => none⟩

/-- The filter for new visits. -/
def newVisits : Filter := ⟨"", "tag", false, .categorical, "", .equals, "new", .and⟩

/-- The new visits, and their number as a derived metric, with a global filter for a town. -/
def townGroup (connective : Connective) : QueryGroup :=
  let visits (filters : List Filter) : Query :=
    ⟨.events, "visits", ["count"], filters, [], 0, 9, none, .standard, "a", "", "", none⟩
  let derived : Query :=
    { visits [] with
      queryType := .derived
      definition := some ⟨"", "a", [visits [newVisits]], [], [], ""⟩ }
  ⟨"", "", [visits [newVisits], derived],
    [⟨"", "town", true, .categorical, "", .equals, "Rome", connective⟩], [], ""⟩

/-- A global filter that is joined by `and` narrows the direct member and the sub-query. -/
theorem broadcast_narrows_or_alternative_towns : ∃ plans,
    ((townSource.normalize [] (townGroup .and)).run.run .fresh).1 = .ok plans ∧
      List.Forall₂ (Query.PlanSelects townSource [] (townGroup .and)) (townGroup .and).queries
        plans :=
  ⟨_, rfl, broadcast_narrows_or_alternative rfl⟩

/-- A global filter that is joined by `or` admits an old visit to the town, which the member's own filter
does not. -/
theorem not_narrows_alternative : ∃ r plan resolvedOwn,
    ((townSource.normalize [] (townGroup .or)).run.run .fresh).1 = .ok [.direct r, plan] ∧
      List.Forall₂ (Filter.ResolvesTo townSource "visits") [newVisits] resolvedOwn ∧
      ¬ ∀ record, satisfies record r.query.filters = true → satisfies record resolvedOwn = true := by
  refine ⟨_, _, [newVisits], rfl, .cons (.concrete rfl) .nil, fun hnarrows => ?_⟩
  have hown := hnarrows ⟨1, "visits", "", 5, [("tag", .str "old"), ("city", .str "Rome")]⟩
    (by decide +kernel)
  exact absurd hown (by decide +kernel)

end MappingSource

end FederatedMetrics
