import FederatedMetrics.Executor
import FederatedMetrics.Plan.Basic
import FederatedMetrics.Proofs.Table.Columns

/-!
# What a registry replies

A registry replies with a table only if the executor of the category does; the table then has the
columns of the query in front. All its failures are failures of the execution.
-/

namespace FederatedMetrics

namespace Reply

variable {α β : Type} {reply : Reply α}

/-- A reply that breaks down. -/
def BreaksDown (r : Reply α) : Prop := ∃ time, r = .breakdown time

/-- A result at once, or nothing ever. -/
def IsPrompt (r : Reply α) : Prop := (∃ result, r = .now result) ∨ r = .never

@[simp] theorem result?_andThen (r : Reply α) (f : Except Failure α → Except Failure β) :
    (r.andThen f).result? = r.result?.map f := by
  cases r <;> rfl

@[simp] theorem due?_andThen (r : Reply α) (f : Except Failure α → Except Failure β) :
    (r.andThen f).due? = r.due? := by
  cases r <;> rfl

@[simp] theorem result?_later (time : Nat) (r : Reply α) : (r.later time).result? = r.result? := by
  cases r <;> rfl

@[simp] theorem later_zero (r : Reply α) : r.later 0 = r := by
  cases r <;> simp [later]

/-- What a result at once is followed by. -/
@[simp] theorem bind_now (x : α) (f : α → Reply β) : (now (.ok x)).bind f = f x := later_zero (f x)

theorem value?_eq_some_iff {x : α} : reply.value? = some x ↔ reply.result? = some (.ok x) := by
  cases reply with
  | after delay result => cases result <;> simp [value?, result?]
  | breakdown delay => simp [value?, result?]
  | never => simp [value?, result?]

theorem value?_andThen_eq_some_iff {f : Except Failure α → Except Failure β} {y : β} :
    (reply.andThen f).value? = some y ↔ ∃ result, reply.result? = some result ∧ f result = .ok y := by
  rw [value?_eq_some_iff, result?_andThen, Option.map_eq_some_iff]

theorem breaksDown_andThen_iff {f : Except Failure α → Except Failure β} :
    (reply.andThen f).BreaksDown ↔ reply.BreaksDown := by
  cases reply <;> simp [BreaksDown, andThen]

end Reply

/-- A store of records answers or breaks down at once. -/
theorem RecordStore.due?_ofStore (s : RecordStore) (projectId : Int) (r : ResolvedQuery)
    (options : ExecutionOptions) : ((Executor.ofStore s).execute projectId r options).due? = some 0 := by
  simp only [Executor.ofStore]
  split <;> rfl

/-- A relabelled table has the columns of its query in front. -/
theorem ResultTable.describes_of_relabel {t relabelled : ResultTable} {r : ResolvedQuery}
    (h : t.relabel r = .ok relabelled) : r.layout.Describes relabelled := by
  rw [relabel] at h
  split at h
  · cases h
  · rename_i hwide
    cases h
    have hoffset : (t.headers.take r.isBucketed.toNat).length = r.isBucketed.toNat := by
      rw [List.length_take]
      omega
    constructor
    · simp only [KeyLayout.width, KeyLayout.offset, ResolvedQuery.layout, List.length_append,
        hoffset, List.length_drop]
      omega
    · rw [KeyLayout.offset, ResolvedQuery.layout, List.append_assoc, List.drop_left' hoffset,
        List.take_left' rfl]

theorem ResultTable.kind_of_relabel {t : ResultTable} {r : ResolvedQuery} {f : Failure}
    (h : t.relabel r = .error f) : f.kind = .executionFailure := by
  rw [relabel] at h
  split at h <;> cases h
  rfl

theorem KeyLayout.Describes.mem_headers {k : KeyLayout} {t : ResultTable} (h : k.Describes t)
    {label : String} (hlabel : label ∈ k.labels) : label ∈ t.headers := by
  rw [← h.labels_eq] at hlabel
  exact List.mem_of_mem_drop (List.mem_of_mem_take hlabel)

namespace Registry

variable {registry : Registry} {projectId : Int} {r : ResolvedQuery} {options : ExecutionOptions}

theorem kind_wrap (q : Query) (f : Failure) : (wrap q f).kind = .executionFailure := by
  rw [wrap]
  split
  · assumption
  · rfl

/-- A query is answered with a table exactly if its executor answers with one that can carry the
labels. -/
theorem run_eq_ok_iff {t : ResultTable} :
    (registry.run projectId r options).value? = some t ↔
      ∃ x given, registry r.query.category = some x ∧
        (x.execute projectId r options).value? = some given ∧ given.relabel r = .ok t := by
  rw [run, get]
  cases hregistry : registry r.query.category with
  | none => simp [Reply.value?]
  | some x =>
      refine Reply.value?_andThen_eq_some_iff.trans ?_
      simp only [Reply.value?_eq_some_iff, Option.some.injEq, exists_and_left, exists_eq_left']
      constructor
      · rintro ⟨result, hresult, h⟩
        cases result with
        | ok given => exact ⟨given, hresult, h⟩
        | error f => cases h
      · rintro ⟨given, hgiven, h⟩
        exact ⟨.ok given, hgiven, h⟩

/-- Every executor answers every query at once, or breaks down at once. -/
def AnswersAtOnce (registry : Registry) : Prop :=
  ∀ c x, registry c = some x → ∀ projectId r options, (x.execute projectId r options).due? = some 0

theorem AnswersAtOnce.due?_run (h : registry.AnswersAtOnce) :
    (registry.run projectId r options).due? = some 0 := by
  rw [run, get]
  cases hregistry : registry r.query.category with
  | none => rfl
  | some x => exact (Reply.due?_andThen _ _).trans (h _ x hregistry projectId r options)

/-- No executor breaks down at a query. -/
def NeverBreaksDown (registry : Registry) : Prop :=
  ∀ c x, registry c = some x → ∀ projectId r options, ¬ (x.execute projectId r options).BreaksDown

theorem NeverBreaksDown.run (h : registry.NeverBreaksDown) :
    ¬ (registry.run projectId r options).BreaksDown := by
  rw [Registry.run, get]
  cases hregistry : registry r.query.category with
  | none => simp [Reply.BreaksDown]
  | some x => exact mt Reply.breaksDown_andThen_iff.mp (h _ x hregistry projectId r options)

/-- No executor looks at the options of a query. -/
def IgnoresOptions (registry : Registry) : Prop :=
  ∀ c x, registry c = some x → ∀ projectId r options other,
    x.execute projectId r options = x.execute projectId r other

/-- Every executor is one over a store of records. -/
def OverStores (registry : Registry) : Prop :=
  ∀ c x, registry c = some x → ∃ s, x = .ofStore s

/-- Executors over stores of records take no shortcuts. -/
theorem OverStores.ignoresOptions (h : registry.OverStores) : registry.IgnoresOptions := by
  intro c x hx projectId r options other
  obtain ⟨s, rfl⟩ := h c x hx
  rfl

/-- Executors over stores of records take no time. -/
theorem OverStores.answersAtOnce (h : registry.OverStores) : registry.AnswersAtOnce := by
  intro c x hx projectId r options
  obtain ⟨s, rfl⟩ := h c x hx
  exact s.due?_ofStore projectId r options

theorem IgnoresOptions.run_eq (h : registry.IgnoresOptions) (other : ExecutionOptions) :
    registry.run projectId r options = registry.run projectId r other := by
  rw [run, run, get]
  cases hregistry : registry r.query.category with
  | none => rfl
  | some x => exact congrArg (Reply.andThen · _) (h _ x hregistry projectId r options other)

/-- Whatever an executor reports, it counts as a failure of the execution. -/
theorem kind_of_run {f : Failure} (h : (registry.run projectId r options).result? = some (.error f)) :
    f.kind = .executionFailure := by
  rw [run, get] at h
  cases hregistry : registry r.query.category with
  | none =>
      rw [hregistry] at h
      cases h
      rfl
  | some x =>
      rw [hregistry, Reply.result?_andThen] at h
      obtain ⟨result, -, h⟩ := Option.map_eq_some_iff.mp h
      cases result with
      | ok given => exact ResultTable.kind_of_relabel h
      | error reported =>
          cases h
          exact kind_wrap _ _

end Registry

end FederatedMetrics
