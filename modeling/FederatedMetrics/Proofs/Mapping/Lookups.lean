import FederatedMetrics.Proofs.Plan.Resolving
import Mathlib.Data.Finset.Card

/-!
# What a resolver remembers and counts

A resolver reads each name once from the store, when it is first looked up, and remembers what it has
found, also that there is nothing. Its misses are the names it has read and its hits all other look-ups.
This holds of a fresh resolver and is kept by every look-up, hence by any number of them.
-/

namespace FederatedMetrics

/-- The names that have been read from the store, the last one first. -/
def Resolver.loaded (r : Resolver) : List String := r.known.map (·.1)

/-- What a resolver is like that has looked up some names: it has read exactly these from the store,
each once, and remembers what the store has. It counts a miss for every name that it has read and a hit
for every other look-up. -/
structure Resolver.Served (source : MappingSource) (names : List String) (r : Resolver) : Prop where
  coherent : r.Coherent source
  mem_loaded_iff : ∀ name, name ∈ r.loaded ↔ name ∈ names
  nodup_loaded : r.loaded.Nodup
  misses_eq : r.misses = r.loaded.length
  total_eq : r.hits + r.misses = names.length

theorem Resolver.served_fresh (source : MappingSource) : Resolver.fresh.Served source [] where
  coherent := coherent_fresh source
  mem_loaded_iff _ := Iff.rfl
  nodup_loaded := .nil
  misses_eq := rfl
  total_eq := rfl

/-- A name has been read if and only if something is remembered for it. -/
theorem Resolver.mem_loaded_iff_isSome {r : Resolver} {name : String} :
    name ∈ r.loaded ↔ (r.known.lookup name).isSome = true := by
  rw [loaded]
  induction r.known with
  | nil => simp
  | cons entry rest ih =>
      rw [List.map_cons, List.mem_cons, ih, List.lookup_cons]
      by_cases hsame : name = entry.1
      · simp [hsame]
      · have hother : (name == entry.1) = false := beq_false_of_ne hsame
        simp only [hsame, hother, false_or]

namespace MappingSource

variable {source : MappingSource} {r : Resolver} {name : String}

/-- A name that has been read is looked up without the store. -/
theorem lookup_of_mem_loaded (h : name ∈ r.loaded) :
    ∃ found, ∀ source : MappingSource, source.lookup name r = (found, { r with hits := r.hits + 1 }) := by
  obtain ⟨found, hfound⟩ := Option.isSome_iff_exists.mp (Resolver.mem_loaded_iff_isSome.mp h)
  exact ⟨found, fun source => by rw [lookup, hfound]⟩

/-- A name that has not been read is read from the store and remembered. -/
theorem lookup_of_not_mem_loaded (h : name ∉ r.loaded) :
    source.lookup name r =
      (source.store.find? source.projectId name, { r with
        known := (name, source.store.find? source.projectId name) :: r.known
        misses := r.misses + 1 }) := by
  rw [Resolver.mem_loaded_iff_isSome, Option.not_isSome_iff_eq_none] at h
  rw [lookup, h]

/-- The resolver after look-ups of some names, in order. -/
def lookups (source : MappingSource) (names : List String) (r : Resolver) : Resolver :=
  names.foldl (fun r name => (source.lookup name r).2) r

theorem lookups_append (source : MappingSource) (names more : List String) (r : Resolver) :
    source.lookups (names ++ more) r = source.lookups more (source.lookups names r) :=
  List.foldl_append

end MappingSource

namespace Resolver.Served

variable {source : MappingSource} {names : List String} {r : Resolver}

/-- A look-up either is served from memory and counts as a hit, or reads one more name. -/
theorem lookup (h : r.Served source names) (name : String) :
    (source.lookup name r).2.Served source (names ++ [name]) := by
  have hcoherent := (MappingSource.lookup_spec h.coherent name).2
  have htotal := h.total_eq
  by_cases hloaded : name ∈ r.loaded
  · obtain ⟨found, hfound⟩ := MappingSource.lookup_of_mem_loaded hloaded
    rw [hfound source] at hcoherent ⊢
    refine ⟨hcoherent, fun other => ?_, h.nodup_loaded, h.misses_eq, ?_⟩
    · -- The name is among the earlier ones already.
      have hknown := (h.mem_loaded_iff name).mp hloaded
      rw [List.mem_append, List.mem_singleton]
      constructor
      · exact fun hother => .inl ((h.mem_loaded_iff other).mp hother)
      · rintro (hother | rfl)
        · exact (h.mem_loaded_iff other).mpr hother
        · exact hloaded
    · rw [List.length_append, List.length_singleton]
      dsimp only
      omega
  · rw [MappingSource.lookup_of_not_mem_loaded hloaded] at hcoherent ⊢
    refine ⟨hcoherent, fun other => ?_, List.nodup_cons.mpr ⟨hloaded, h.nodup_loaded⟩, ?_, ?_⟩
    · rw [List.mem_append, List.mem_singleton, ← h.mem_loaded_iff other, or_comm]
      exact List.mem_cons
    · exact congrArg (· + 1) h.misses_eq
    · rw [List.length_append, List.length_singleton]
      dsimp only
      omega

/-- Any number of look-ups keeps what a resolver is like. -/
theorem lookups (h : r.Served source names) (more : List String) :
    (source.lookups more r).Served source (names ++ more) := by
  induction more generalizing r names with
  | nil => rwa [List.append_nil]
  | cons name rest ih =>
      have hnext := ih (h.lookup name)
      rwa [List.append_assoc] at hnext

/-- The misses are the distinct names. -/
theorem misses_eq_card (h : r.Served source names) : r.misses = names.toFinset.card := by
  have hsame : r.loaded.toFinset = names.toFinset := by
    ext name
    rw [List.mem_toFinset, List.mem_toFinset, h.mem_loaded_iff]
  rw [h.misses_eq, ← hsame, List.toFinset_card_of_nodup h.nodup_loaded]

end Resolver.Served

namespace Resolving

variable {α β : Type}

theorem run_map (f : α → β) (x : Resolving α) (r : Resolver) :
    (f <$> x).run.run r = ((x.run.run r).1.map f, (x.run.run r).2) := by
  rw [map_eq_pure_bind, run_bind]
  rcases x.run.run r with ⟨_ | a, later⟩ <;> rfl

end Resolving

namespace MappingSource

/-- Whatever comes of it, a mapping is looked up once by its name. -/
theorem later_mapping (source : MappingSource) (name : String) (r : Resolver) :
    ((source.mapping name).run.run r).2 = (source.lookup name r).2 := by
  simp only [mapping, ExceptT.run_mk, StateT.run]
  rcases source.lookup name r with ⟨_ | m, later⟩ <;> rfl

/-- Whatever comes of it, a property is resolved by one look-up of the mapping. -/
theorem later_resolve (source : MappingSource) (name displayCategory : String) (r : Resolver) :
    ((source.resolve name displayCategory).run.run r).2 = (source.lookup name r).2 := by
  rw [resolve, Resolving.run_bind, ← later_mapping]
  rcases (source.mapping name).run.run r with ⟨_ | m, later⟩
  · rfl
  · cases hproperty : m.property displayCategory <;> simp [hproperty] <;> rfl

end MappingSource

end FederatedMetrics
