import FederatedMetrics.Mapping.Resolver
import FederatedMetrics.Proofs.Failure

/-!
# Look-ups that are served from memory

A resolver only remembers what the store has, so a computation gives the same answer whatever has
been looked up before. What such computations answer is put together as if there were no memory.
-/

namespace FederatedMetrics

/-- The resolver remembers what the source has. -/
def Resolver.Coherent (source : MappingSource) (r : Resolver) : Prop :=
  ∀ name found, r.known.lookup name = some found →
    found = source.store.find? source.projectId name

theorem Resolver.coherent_fresh (source : MappingSource) : Resolver.fresh.Coherent source := by
  simp [Coherent, fresh]

/-- A look-up answers what the source has and remembers nothing else. -/
theorem MappingSource.lookup_spec {source : MappingSource} {r : Resolver}
    (h : r.Coherent source) (name : String) :
    (source.lookup name r).1 = source.store.find? source.projectId name ∧
      (source.lookup name r).2.Coherent source := by
  rw [lookup]
  cases hknown : r.known.lookup name with
  | some found => exact ⟨h name found hknown, h⟩
  | none =>
      constructor
      · rfl
      intro other found hfound
      rw [List.lookup_cons] at hfound
      split at hfound
      · rename_i hsame
        rw [← Option.some.inj hfound, eq_of_beq hsame]
      · exact h other found hfound

namespace Resolving

variable {α β : Type} {source : MappingSource}

/-- What a computation answers when nothing has been looked up before. -/
def result (x : Resolving α) : Except Failure α := (x.run.run .fresh).1

/-- A computation that answers the same whatever the resolver remembers. -/
def Transparent (source : MappingSource) (x : Resolving α) : Prop :=
  ∀ r : Resolver, r.Coherent source →
    (x.run.run r).1 = x.result ∧ (x.run.run r).2.Coherent source

theorem run_bind (x : Resolving α) (f : α → Resolving β) (r : Resolver) :
    (x >>= f).run.run r =
      match x.run.run r with
      | (.ok a, later) => (f a).run.run later
      | (.error e, later) => (.error e, later) := by
  rcases hx : x.run.run r with ⟨answer, later⟩
  have hbind : (x >>= f).run.run r =
      (ExceptT.bindCont f (x.run.run r).1).run (x.run.run r).2 := rfl
  rw [hbind, hx]
  cases answer <;> rfl

theorem result_pure (a : α) : result (pure a) = .ok a := rfl

theorem result_liftM (e : Except Failure α) : result (liftM e) = e := by
  cases e <;> rfl

theorem transparent_pure (a : α) : Transparent source (pure a) := fun _ hr => ⟨rfl, hr⟩

theorem transparent_liftM (e : Except Failure α) : Transparent source (liftM e) := by
  cases e with
  | error e => exact fun _ hr => ⟨rfl, hr⟩
  | ok a => exact fun _ hr => ⟨rfl, hr⟩

/-- A computation after a transparent one answers as without memory. -/
theorem Transparent.result_bind {x : Resolving α} {f : α → Resolving β}
    (hx : Transparent source x) (hf : ∀ a, Transparent source (f a)) :
    result (x >>= f) = x.result >>= fun a => (f a).result := by
  obtain ⟨hanswer, hlater⟩ := hx .fresh (Resolver.coherent_fresh source)
  rw [result, run_bind]
  rcases hx : x.run.run .fresh with ⟨answer, later⟩
  rw [hx] at hanswer hlater
  cases answer with
  | error e => rw [← hanswer]; rfl
  | ok a => rw [← hanswer]; exact (hf a later hlater).1

theorem Transparent.bind {x : Resolving α} {f : α → Resolving β}
    (hx : Transparent source x) (hf : ∀ a, Transparent source (f a)) :
    Transparent source (x >>= f) := by
  intro r hr
  rw [hx.result_bind hf, run_bind]
  obtain ⟨hanswer, hlater⟩ := hx r hr
  rcases hx : x.run.run r with ⟨answer, later⟩
  rw [hx] at hanswer hlater
  cases answer with
  | error e => rw [← hanswer]; exact ⟨rfl, hlater⟩
  | ok a => rw [← hanswer]; exact hf a later hlater

theorem transparent_mapM {f : α → Resolving β} (hf : ∀ a, Transparent source (f a))
    (items : List α) : Transparent source (items.mapM f) := by
  induction items with
  | nil => exact transparent_pure []
  | cons a rest ih =>
      rw [List.mapM_cons]
      exact (hf a).bind fun b => ih.bind fun bs => transparent_pure (b :: bs)

theorem result_mapM {f : α → Resolving β} (hf : ∀ a, Transparent source (f a))
    (items : List α) : result (items.mapM f) = items.mapM fun a => (f a).result := by
  induction items with
  | nil => rfl
  | cons a rest ih =>
      have htail : ∀ b, Transparent source (do let bs ← rest.mapM f; pure (b :: bs)) := fun b =>
        (transparent_mapM hf rest).bind fun bs => transparent_pure (b :: bs)
      rw [List.mapM_cons, List.mapM_cons, (hf a).result_bind htail]
      congr 1
      funext b
      rw [(transparent_mapM hf rest).result_bind fun bs => transparent_pure (b :: bs), ih]
      rfl

/-- A transparent computation that answers exactly with the values of which a property holds. -/
structure Yields (source : MappingSource) (x : Resolving α) (P : α → Prop) : Prop where
  transparent : Transparent source x
  result_eq_ok_iff : ∀ a, x.result = .ok a ↔ P a

theorem yields_pure (a : α) : Yields source (pure a) (a = ·) where
  transparent := transparent_pure a
  result_eq_ok_iff b := by rw [result_pure, Except.ok.injEq]

theorem yields_liftM (e : Except Failure α) : Yields source (liftM e) (e = .ok ·) where
  transparent := transparent_liftM e
  result_eq_ok_iff a := by rw [result_liftM]

theorem Yields.bind {x : Resolving α} {f : α → Resolving β} {P : α → Prop} {Q : α → β → Prop}
    (hx : Yields source x P) (hf : ∀ a, Yields source (f a) (Q a)) :
    Yields source (x >>= f) (fun b => ∃ a, P a ∧ Q a b) where
  transparent := hx.transparent.bind fun a => (hf a).transparent
  result_eq_ok_iff b := by
    rw [hx.transparent.result_bind fun a => (hf a).transparent, bind_eq_ok_iff]
    exact exists_congr fun a => and_congr (hx.result_eq_ok_iff a) ((hf a).result_eq_ok_iff b)

theorem yields_mapM {f : α → Resolving β} {P : α → β → Prop} (hf : ∀ a, Yields source (f a) (P a))
    (items : List α) : Yields source (items.mapM f) (List.Forall₂ P items) where
  transparent := transparent_mapM (fun a => (hf a).transparent) items
  result_eq_ok_iff out := by
    rw [result_mapM fun a => (hf a).transparent, mapM_eq_ok_iff]
    have hsame : (fun a b => (f a).result = .ok b) = P :=
      funext fun a => funext fun b => propext ((hf a).result_eq_ok_iff b)
    rw [hsame]

theorem Yields.congr {x : Resolving α} {P Q : α → Prop} (hx : Yields source x P)
    (h : ∀ a, P a ↔ Q a) : Yields source x Q where
  transparent := hx.transparent
  result_eq_ok_iff a := (hx.result_eq_ok_iff a).trans (h a)

end Resolving

namespace MappingSource

open Resolving

variable {source : MappingSource}

theorem run_mapping {r : Resolver} (h : r.Coherent source) (name : String) :
    ((source.mapping name).run.run r).1 = source.store.get source.projectId name ∧
      ((source.mapping name).run.run r).2.Coherent source := by
  obtain ⟨hfound, hlater⟩ := lookup_spec h name
  rw [MappingStore.get, ← hfound]
  rcases hlookup : source.lookup name r with ⟨found, later⟩
  rw [hlookup] at hlater
  simp only [mapping, ExceptT.run_mk, StateT.run, hlookup]
  cases found with
  | none => exact ⟨rfl, hlater⟩
  | some m => exact ⟨rfl, hlater⟩

theorem result_mapping (source : MappingSource) (name : String) :
    (source.mapping name).result = source.store.get source.projectId name :=
  (run_mapping (Resolver.coherent_fresh source) name).1

theorem transparent_mapping (source : MappingSource) (name : String) :
    Transparent source (source.mapping name) := by
  intro r hr
  obtain ⟨hanswer, hlater⟩ := run_mapping hr name
  exact ⟨hanswer.trans (result_mapping source name).symm, hlater⟩

theorem transparent_resolve (source : MappingSource) (name displayCategory : String) :
    Transparent source (source.resolve name displayCategory) :=
  (transparent_mapping source name).bind fun m => transparent_liftM (m.property displayCategory)

/-- A mapping is resolved as in the store. -/
theorem result_resolve (source : MappingSource) (name displayCategory : String) :
    (source.resolve name displayCategory).result =
      source.store.resolve source.projectId name displayCategory := by
  rw [resolve, (transparent_mapping source name).result_bind fun m =>
    transparent_liftM (m.property displayCategory), result_mapping]
  exact congrArg _ (funext fun m => result_liftM _)

/-- A property mapping of the project has a property for a display category. -/
def Provides (source : MappingSource) (name displayCategory : String) (p : Property) : Prop :=
  ∃ m, source.store.find? source.projectId name = some m ∧ m.propertyFor? displayCategory = some p

theorem yields_resolve (source : MappingSource) (name displayCategory : String) :
    Yields source (source.resolve name displayCategory) (source.Provides name displayCategory) where
  transparent := transparent_resolve source name displayCategory
  result_eq_ok_iff p := by
    rw [result_resolve, MappingStore.resolve, bind_eq_ok_iff, Provides]
    apply exists_congr
    intro m
    rw [MappingStore.get, PropertyMapping.property]
    cases source.store.find? source.projectId name <;>
      cases m.propertyFor? displayCategory <;> simp

end MappingSource

end FederatedMetrics
