import FederatedMetrics.Json.Decoder
import FederatedMetrics.Proofs.Failure

/-!
# Fields of a record

A field is read from what is found for it in the record, which is nothing or one document. So the order of
the fields does not matter, nor what stands under other names.
-/

namespace FederatedMetrics

namespace Document

theorem isWhole_arr_iff (items : List Document) :
    (arr items).isWhole = true ↔ ∀ item ∈ items, item.isWhole = true := by
  rw [isWhole]
  induction items with
  | nil => simp [itemsWhole]
  | cons item rest ih => simp [itemsWhole, ih]

theorem isWhole_obj_iff (entries : List (Option String × Document)) :
    (obj entries).isWhole = true ↔ ∀ entry ∈ entries, entry.2.isWhole = true := by
  rw [isWhole]
  induction entries with
  | nil => simp [entriesWhole]
  | cons entry rest ih => simp only [entriesWhole, Bool.and_eq_true, ih, List.forall_mem_cons]

end Document

namespace Json

variable {α : Type}

theorem tooDeep_ne_ok (document : Document) (x : α) : tooDeep document ≠ .ok x := by
  cases document <;> simp [tooDeep, refuse]

/-- The documents under some names in an object. -/
def under (names : List String) (entries : List (Option String × Document)) : List Document :=
  (entries.filter fun entry => entry.1.any names.contains).map (·.2)

theorem under_append (names : List String) (before after : List (Option String × Document)) :
    under names (before ++ after) = under names before ++ under names after := by
  simp [under]

theorem under_cons_of_mem {names : List String} {key : String} (h : key ∈ names)
    (value : Document) (rest : List (Option String × Document)) :
    under names ((some key, value) :: rest) = value :: under names rest := by
  simp [under, h]

theorem under_cons_of_not_mem {names : List String} {key : String} (h : key ∉ names)
    (value : Document) (rest : List (Option String × Document)) :
    under names ((some key, value) :: rest) = under names rest := by
  simp [under, h]

theorem under_perm {entries entries' : List (Option String × Document)}
    (h : entries.Perm entries') (names : List String) :
    (under names entries).Perm (under names entries') :=
  (h.filter _).map _

namespace Fields

/-- The documents that are found for a field. -/
def found (f : Fields) (position : Nat) (names : List String) : List Document :=
  (f.given position names).map (·.2)

theorem found_object (entries : List (Option String × Document)) (nesting position : Nat)
    (names : List String) : found ⟨true, entries, nesting⟩ position names = under names entries := by
  have hplaces : (entries.zipIdx.filter fun entry => entry.1.1.any names.contains).map (·.1) =
      entries.filter fun entry => entry.1.any names.contains := by
    conv_rhs => rw [← List.zipIdx_map_fst 0 entries, List.filter_map]
    rfl
  rw [found, given, if_pos rfl, List.map_map, under, ← hplaces, List.map_map]
  rfl

theorem found_array (items : List Document) (nesting position : Nat) (names : List String) :
    found ⟨false, items.map (none, ·), nesting⟩ position names = items[position]?.toList := by
  cases h : items[position]? <;> simp [found, given, h]

/-- A field has a value if it is not found and has one then, or if one document is found for it and is
read. -/
theorem read_eq_value_iff {f : Fields} {position : Nat} {names : List String} {decode : Decoder α}
    {absent : FieldResult α} {x : α} :
    f.read position names decode absent = .value x ↔
      (f.found position names = [] ∧ absent = .value x) ∨
        ∃ document, f.found position names = [document] ∧ decode f.nesting document = .ok x := by
  cases hgiven : f.given position names with
  | nil => simp [read, found, hgiven]
  | cons first repeated =>
      obtain ⟨place, document⟩ := first
      cases hread : decode f.nesting document with
      | error error => simp [read, found, hgiven, hread]
      | ok y =>
          cases repeated with
          | nil => simp [read, found, hgiven, hread, FieldResult.withFault]
          | cons second _ =>
              simp [read, found, hgiven, hread, FieldResult.withFault, FieldResult.map,
                FieldResult.apply]

end Fields

/-! ## Whole records -/

theorem FieldResult.withFault_toExcept_eq_ok_iff {result : FieldResult α} {error : DecodeError}
    {place : Option Nat} {x : α} :
    (result.withFault error place).toExcept = .ok x ↔ result = .value x ∧ place = none := by
  cases place with
  | none => cases result <;> simp [withFault, toExcept]
  | some place =>
      cases result with
      | value y => simp [withFault, map, apply, toExcept]
      | fault first error' =>
          by_cases h : place < first <;> simp [withFault, map, apply, toExcept, h]

/-- Every entry of an object has a key, and the text does not break off in any. -/
def EntriesSound (entries : List (Option String × Document)) : Prop :=
  ∀ entry ∈ entries, entry.1.isSome = true ∧ entry.2.isWhole = true

theorem entriesSound_iff (entries : List (Option String × Document)) :
    EntriesSound entries ↔
      (∀ entry ∈ entries, entry.1.isSome = true) ∧ (Document.obj entries).isWhole = true := by
  rw [Document.isWhole_obj_iff]
  exact forall₂_and

theorem record_object_eq_ok_iff {arity : Nat} {read : Fields → FieldResult α} {nesting : Nat}
    {entries : List (Option String × Document)} {x : α} :
    record arity read nesting (.obj entries) = .ok x ↔
      ∃ inner, nesting = inner + 1 ∧ read ⟨true, entries, inner⟩ = .value x ∧
        EntriesSound entries := by
  cases nesting with
  | zero => simp [record, tooDeep]
  | succ inner =>
      have hsound : Fields.faultPlace? ⟨true, entries, inner⟩ arity = none ↔ EntriesSound entries := by
        simp [Fields.faultPlace?, EntriesSound, Option.isSome_iff_ne_none]
      rw [record, record.finish, FieldResult.withFault_toExcept_eq_ok_iff, hsound]
      simp

theorem record_array_eq_ok_iff {arity : Nat} {read : Fields → FieldResult α} {nesting : Nat}
    {items : List Document} {x : α} :
    record arity read nesting (.arr items) = .ok x ↔
      ∃ inner, nesting = inner + 1 ∧ read ⟨false, items.map (none, ·), inner⟩ = .value x ∧
        items.length ≤ arity := by
  cases nesting with
  | zero => simp [record, tooDeep]
  | succ inner =>
      rw [record, record.finish, FieldResult.withFault_toExcept_eq_ok_iff]
      simp [Fields.faultPlace?]

end Json

end FederatedMetrics
