import FederatedMetrics.FilterValues
import FederatedMetrics.Proofs.Executor
import FederatedMetrics.Proofs.Record.Nulls
import FederatedMetrics.Proofs.Text.ByteOrder

/-!
# The values of a mapping

The values of a mapping are looked up property by property, and each executor returns only its first
values. Still the answer holds the first values of all properties together, since what is among the first
values of all is among those of its own property.
-/

namespace FederatedMetrics

namespace FilterValuesRequest

variable {mappings : MappingStore} {registry : Registry} {stores : Category → Option RecordStore}
  {projectId : Int} {properties : List Property} {r : FilterValuesRequest}

/-- The categories of properties are served from the records of stores, where they are served at all. -/
def ServedFrom (registry : Registry) (stores : Category → Option RecordStore)
    (properties : List Property) : Prop :=
  ∀ p ∈ properties, registry p.category = (stores p.category).map Executor.ofStore

/-- A text is observed for a property if a record of the project and the display category, and of the
object type of the property if it has one, carries the property with this text. -/
def Observed (stores : Category → Option RecordStore) (projectId : Int) (p : Property) (text : String) :
    Prop :=
  ∃ s, stores p.category = some s ∧ ∃ record ∈ s.records, record.projectId = projectId ∧
    record.displayCategory = p.displayCategory ∧
    (p.objectType ≠ "" → record.objectType = p.objectType) ∧ record.hasProperty p.name = true ∧
    record.textOf p.name = text

/-- The texts of a property on the records that are looked at. -/
def textsOf (stores : Category → Option RecordStore) (projectId : Int) (p : Property) : List String :=
  match stores p.category with
  | some s => Record.carriedTexts p.name (s.asked projectId p)
  | none => []

theorem mem_textsOf_iff (p : Property) (text : String) :
    text ∈ textsOf stores projectId p ↔ Observed stores projectId p text := by
  unfold textsOf Observed
  cases h : stores p.category with
  | none => simp
  | some s => simp [Record.mem_carriedTexts, RecordStore.asked, and_assoc, or_iff_not_imp_left]

/-- The first values of every property are put together in the order of the properties. -/
theorem collect_of_served (hserved : ServedFrom registry stores properties)
    (hstores : ∀ p ∈ properties, registry p.category ≠ none) (found : List String) :
    collect registry projectId properties found = .now (.ok
      ((properties.flatMap fun p =>
        (Ordered.ofList (textsOf stores projectId p)).take RecordStore.maxFilterValues).foldl
        (fun vs v => Ordered.insert v vs) found)) := by
  induction properties generalizing found with
  | nil => rfl
  | cons p rest ih =>
      obtain ⟨hp, hrest⟩ := List.forall_mem_cons.mp hserved
      obtain ⟨hsome, hothers⟩ := List.forall_mem_cons.mp hstores
      obtain ⟨s, hs⟩ : ∃ s, stores p.category = some s := by
        rw [hp, Ne, Option.map_eq_none_iff] at hsome
        exact Option.ne_none_iff_exists'.mp hsome
      have hvalues : s.filterValues projectId p =
          (Ordered.ofList (textsOf stores projectId p)).take RecordStore.maxFilterValues := by
        rw [RecordStore.filterValues_eq, textsOf, hs]
      rw [collect, Registry.get, hp, hs]
      simp only [Option.map_some, Executor.ofStore, Reply.bind_now, hvalues, ih hrest hothers,
        List.flatMap_cons, List.foldl_append]

/-- Values are refused exactly if a category has no executor. -/
theorem exists_collect_eq_error_iff (hserved : ServedFrom registry stores properties)
    (found : List String) :
    (∃ f, collect registry projectId properties found = .now (.error f)) ↔
      ∃ p ∈ properties, registry p.category = none := by
  constructor
  · rintro ⟨f, hf⟩
    by_contra hnone
    have hall : ∀ p ∈ properties, registry p.category ≠ none :=
      fun p hp hregistry => hnone ⟨p, hp, hregistry⟩
    rw [collect_of_served hserved hall] at hf
    cases hf
  · intro hnone
    induction properties generalizing found with
    | nil => simp at hnone
    | cons p rest ih =>
        obtain ⟨hp, hrest⟩ := List.forall_mem_cons.mp hserved
        rw [collect, Registry.get]
        cases hs : stores p.category with
        | none =>
            rw [hp, hs]
            exact ⟨_, rfl⟩
        | some s =>
            rw [hp, hs]
            simp only [Option.map_some, Executor.ofStore, Reply.bind_now]
            refine ih hrest _ ?_
            obtain ⟨q, hq, hregistry⟩ := hnone
            rcases List.mem_cons.mp hq with rfl | hq
            · simp [hp, hs] at hregistry
            · exact ⟨q, hq, hregistry⟩

theorem lookup_of_find? {m : PropertyMapping} (hmapping : r.isMapping = true)
    (hname : Text.isBlankText r.propertyName = false)
    (hm : mappings.find? projectId r.propertyName = some m) :
    r.lookup mappings registry projectId =
      (collect registry projectId m.properties []).andThen fun found =>
        found.map fun values => values.take RecordStore.maxFilterValues := by
  simp [lookup, FilterValuesRequest.properties, hname, hmapping, MappingStore.get, hm, Except.map]

/-- The values of a mapping are refused exactly for a blank name, for a name that no mapping has, and where
a property of the mapping has no executor. -/
theorem exists_lookup_eq_error_iff (hmapping : r.isMapping = true)
    (hserved : ∀ m, mappings.find? projectId r.propertyName = some m →
      ServedFrom registry stores m.properties) :
    (∃ f, r.lookup mappings registry projectId = .now (.error f)) ↔
      Text.isBlankText r.propertyName = true ∨ mappings.find? projectId r.propertyName = none ∨
        ∃ m, mappings.find? projectId r.propertyName = some m ∧
          ∃ p ∈ m.properties, registry p.category = none := by
  cases hname : Text.isBlankText r.propertyName with
  | true => simp [lookup, FilterValuesRequest.properties, hname]
  | false =>
      cases hm : mappings.find? projectId r.propertyName with
      | none =>
          simp [lookup, FilterValuesRequest.properties, hname, hmapping, MappingStore.get, hm, Except.map]
      | some m =>
          rw [lookup_of_find? hmapping hname hm]
          simp only [Bool.false_eq_true, reduceCtorEq, Option.some.injEq, exists_eq_left', false_or]
          rw [← exists_collect_eq_error_iff (hserved m hm) []]
          cases collect registry projectId m.properties [] with
          | after delay result => cases result <;> simp [Reply.andThen, Except.map]
          | breakdown delay => simp [Reply.andThen]
          | never => simp [Reply.andThen]

/-- The values of a mapping are the first 2500, in the order of their bytes, of all texts that are observed
for any of its properties, although each executor returns no more than 2500 itself. They are refused exactly
for a blank name, for a name that no mapping has, and where a property of the mapping has no executor. -/
theorem values_are_first_observed (mappings : MappingStore) (registry : Registry)
    (stores : Category → Option RecordStore) (projectId : Int) (r : FilterValuesRequest)
    (hmapping : r.isMapping = true)
    (hserved : ∀ m, mappings.find? projectId r.propertyName = some m →
      ServedFrom registry stores m.properties) :
    ((∃ f, r.lookup mappings registry projectId = .now (.error f)) ↔
      Text.isBlankText r.propertyName = true ∨ mappings.find? projectId r.propertyName = none ∨
        ∃ m, mappings.find? projectId r.propertyName = some m ∧
          ∃ p ∈ m.properties, registry p.category = none) ∧
    (Text.isBlankText r.propertyName = false →
      ∀ m, mappings.find? projectId r.propertyName = some m →
        (∀ p ∈ m.properties, registry p.category ≠ none) →
          ∃ texts : List String, texts.Pairwise (fun text other => Text.bytes text < Text.bytes other) ∧
            (∀ text, text ∈ texts ↔ ∃ p ∈ m.properties, Observed stores projectId p text) ∧
            r.lookup mappings registry projectId = .now (.ok (texts.take 2500))) := by
  refine ⟨exists_lookup_eq_error_iff hmapping hserved, fun hname m hm hregistry => ?_⟩
  refine ⟨Ordered.ofList (m.properties.flatMap (textsOf stores projectId)), ?_, ?_, ?_⟩
  · exact (Ordered.pairwise_ofList _).imp fun h => Text.bytes_lt_bytes_iff.mpr h
  · intro text
    simp only [Ordered.mem_ofList, List.mem_flatMap, mem_textsOf_iff]
  · rw [lookup_of_find? hmapping hname hm, collect_of_served (hserved m hm) hregistry]
    exact congrArg (fun values => Reply.now (.ok values))
      (Ordered.take_ofList_flatMap_take 2500 m.properties (textsOf stores projectId))

/-- Cities of visits and of users. -/
def cityMapping : PropertyMapping :=
  ⟨⟨0⟩, 1, "City", "city", [⟨.events, "visits", "", "town", .categorical, ""⟩,
    ⟨.profiles, "users", "person", "home", .categorical, ""⟩], .zero⟩

def cityStores : Category → Option RecordStore
  | .events => some ⟨[⟨1, "visits", "", 5, [("town", .str "Rome")]⟩,
      ⟨1, "visits", "", 6, [("town", .str "Bari")]⟩, ⟨2, "visits", "", 7, [("town", .str "Oslo")]⟩], []⟩
  | .profiles => some ⟨[⟨1, "users", "person", 5, [("home", .str "Rome")]⟩,
      ⟨1, "users", "person", 6, [("home", .str "Cork")]⟩,
      ⟨1, "users", "robot", 7, [("home", .str "Lima")]⟩], []⟩
  | .channels => none

def cityRegistry : Registry := fun c => (cityStores c).map Executor.ofStore

def cityRequest : FilterValuesRequest := ⟨none, "", "", "city", "", true⟩

theorem values_are_first_observed_cities :
    cityRequest.isMapping = true ∧ Text.isBlankText cityRequest.propertyName = false ∧
      MappingStore.find? [cityMapping] 1 cityRequest.propertyName = some cityMapping ∧
      ServedFrom cityRegistry cityStores cityMapping.properties ∧
      (∀ p ∈ cityMapping.properties, cityRegistry p.category ≠ none) ∧
      (∃ texts : List String, texts.Pairwise (fun text other => Text.bytes text < Text.bytes other) ∧
        (∀ text, text ∈ texts ↔ ∃ p ∈ cityMapping.properties, Observed cityStores 1 p text) ∧
        cityRequest.lookup [cityMapping] cityRegistry 1 = .now (.ok (texts.take 2500))) ∧
      cityRequest.lookup [cityMapping] cityRegistry 1 = .now (.ok ["Bari", "Cork", "Rome"]) := by
  have hname : Text.isBlankText cityRequest.propertyName = false := by decide +kernel
  have hfind : MappingStore.find? [cityMapping] 1 cityRequest.propertyName = some cityMapping := rfl
  have hserved : ServedFrom cityRegistry cityStores cityMapping.properties := fun _ _ => rfl
  have hregistry : ∀ p ∈ cityMapping.properties, cityRegistry p.category ≠ none := by
    simp [cityMapping, cityRegistry, cityStores]
  have hserves : ∀ m, MappingStore.find? [cityMapping] 1 cityRequest.propertyName = some m →
      ServedFrom cityRegistry cityStores m.properties := fun m _ _ _ => rfl
  exact ⟨rfl, hname, hfind, hserved, hregistry,
    (values_are_first_observed [cityMapping] cityRegistry cityStores 1 cityRequest rfl hserves).2 hname
      cityMapping hfind hregistry, by rfl⟩

end FilterValuesRequest

end FederatedMetrics
