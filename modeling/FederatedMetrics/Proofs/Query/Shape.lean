import FederatedMetrics.Proofs.Json.Fields
import Mathlib.Data.List.Pairwise
import Mathlib.Logic.Relation

/-!
# Full and short forms

The form of a query says which names its fields have and which names stand for one choice. A document in
that form can be rewritten at one place: a name in the place of another one, the entries of a record in
another order, an entry that no field is read from, a field left out that says nothing. Records are
inside each other, so a place may be at any depth.
-/

namespace FederatedMetrics

/-- What a document stands for. -/
inductive Shape where
  | text
  | flag
  | int
  | granularity
  | category
  | dataType
  | comparison
  | connective
  | queryType
  | filter
  | groupBy
  | query
  | group
  | list (item : Shape)
  | optional (inner : Shape)

/-- A field of a record with all its names and the documents that say as much as leaving it out. -/
structure FieldForm where
  names : List String
  shape : Shape
  idle : List Document

namespace Shape

/-- The fields of a record, in the order of their positions. -/
def fields : Shape → List FieldForm
  | .filter =>
      [⟨["object_type", "objTy"], .text, []⟩, ⟨["property_name", "prNa"], .text, []⟩,
        ⟨["is_property_mapping", "isPrMa"], .flag, []⟩, ⟨["data_type", "prDaTy"], .dataType, []⟩,
        ⟨["entity", "en"], .text, []⟩, ⟨["operator", "co"], .comparison, []⟩,
        ⟨["value", "va"], .text, []⟩, ⟨["logical_op", "lOp"], .connective, []⟩]
  | .groupBy =>
      [⟨["object_type", "objTy"], .text, []⟩, ⟨["property_name", "prNa"], .text, []⟩,
        ⟨["is_property_mapping", "isPrMa"], .flag, []⟩, ⟨["data_type", "prDaTy"], .dataType, []⟩,
        ⟨["entity", "en"], .text, []⟩]
  | .query =>
      [⟨["category", "ca"], .category, []⟩, ⟨["display_category", "dc"], .text, []⟩,
        ⟨["metrics", "me"], .list .text, []⟩, ⟨["filters", "fil"], .list .filter, []⟩,
        ⟨["group_bys", "gBy"], .list .groupBy, []⟩, ⟨["from", "fr"], .int, []⟩, ⟨["to"], .int, []⟩,
        ⟨["group_by_timestamp", "gbt"], .granularity, [.str "", .null]⟩,
        ⟨["query_type", "qt"], .queryType, []⟩, ⟨["name", "na"], .text, []⟩,
        ⟨["alias_name", "an"], .text, []⟩, ⟨["timezone", "tz"], .text, []⟩,
        ⟨["definition"], .optional .group, []⟩]
  | .group =>
      [⟨["class", "cl"], .text, []⟩, ⟨["formula", "for"], .text, []⟩,
        ⟨["queries", "qG"], .list .query, []⟩, ⟨["global_filters", "gFil"], .list .filter, []⟩,
        ⟨["global_group_bys", "gGBy"], .list .groupBy, []⟩, ⟨["display_result_as"], .text, []⟩]
  | _ => []

/-- Names that stand for one choice. -/
def synonyms : Shape → List (List String)
  | .category => [["events", "event"], ["profiles", "profile"], ["channels", "channel"]]
  | .connective => [["AND", "and"], ["OR", "or"]]
  | .queryType => [["", "static", "custom"]]
  | _ => []

/-- One rewriting of a document at one place. A choice is given by its name or by an object with the name
as its key. -/
inductive Rewrites : Shape → Document → Document → Prop
  | respell {shape : Shape} {names : List String} {name name' : String}
      (hnames : names ∈ shape.synonyms) (hname : name ∈ names) (hname' : name' ∈ names) :
      Rewrites shape (.str name) (.str name')
  | respellKey {shape : Shape} {names : List String} {name name' : String} {value : Document}
      (hnames : names ∈ shape.synonyms) (hname : name ∈ names) (hname' : name' ∈ names) :
      Rewrites shape (.obj [(some name, value)]) (.obj [(some name', value)])
  | rename {shape : Shape} {field : FieldForm} {key key' : String} {value : Document}
      {before after : List (Option String × Document)} (hfield : field ∈ shape.fields)
      (hkey : key ∈ field.names) (hkey' : key' ∈ field.names) :
      Rewrites shape (.obj (before ++ (some key, value) :: after))
        (.obj (before ++ (some key', value) :: after))
  | reorder {shape : Shape} {entries entries' : List (Option String × Document)}
      (hrecord : shape.fields ≠ []) (h : entries.Perm entries') :
      Rewrites shape (.obj entries) (.obj entries')
  | add {shape : Shape} {key : String} {value : Document}
      {before after : List (Option String × Document)} (hrecord : shape.fields ≠ [])
      (hkey : ∀ field ∈ shape.fields, key ∉ field.names) (hvalue : value.isWhole = true) :
      Rewrites shape (.obj (before ++ after)) (.obj (before ++ (some key, value) :: after))
  | drop {shape : Shape} {field : FieldForm} {key : String} {value : Document}
      {before after : List (Option String × Document)} (hfield : field ∈ shape.fields)
      (hkey : key ∈ field.names) (hvalue : value ∈ field.idle) :
      Rewrites shape (.obj (before ++ (some key, value) :: after)) (.obj (before ++ after))
  | inField {shape : Shape} {field : FieldForm} {key : String} {value value' : Document}
      {before after : List (Option String × Document)} (hfield : field ∈ shape.fields)
      (hkey : key ∈ field.names) (h : Rewrites field.shape value value') :
      Rewrites shape (.obj (before ++ (some key, value) :: after))
        (.obj (before ++ (some key, value') :: after))
  | inPosition {shape : Shape} {field : FieldForm} {value value' : Document}
      {before after : List Document} (hfield : shape.fields[before.length]? = some field)
      (h : Rewrites field.shape value value') :
      Rewrites shape (.arr (before ++ value :: after)) (.arr (before ++ value' :: after))
  | inItem {item : Shape} {value value' : Document} {before after : List Document}
      (h : Rewrites item value value') :
      Rewrites (.list item) (.arr (before ++ value :: after)) (.arr (before ++ value' :: after))
  | inOptional {inner : Shape} {value value' : Document} (h : Rewrites inner value value') :
      Rewrites (.optional inner) value value'

/-- Somewhere in a document a record gives a field twice, under one name or under two. -/
inductive GivesTwice : Shape → Document → Prop
  | here {shape : Shape} {field : FieldForm} {key key' : String} {value value' : Document}
      {before between after : List (Option String × Document)} (hfield : field ∈ shape.fields)
      (hkey : key ∈ field.names) (hkey' : key' ∈ field.names) :
      GivesTwice shape
        (.obj (before ++ (some key, value) :: (between ++ (some key', value') :: after)))
  | inField {shape : Shape} {field : FieldForm} {key : String} {value : Document}
      {before after : List (Option String × Document)} (hfield : field ∈ shape.fields)
      (hkey : key ∈ field.names) (h : GivesTwice field.shape value) :
      GivesTwice shape (.obj (before ++ (some key, value) :: after))
  | inPosition {shape : Shape} {field : FieldForm} {value : Document} {before after : List Document}
      (hfield : shape.fields[before.length]? = some field) (h : GivesTwice field.shape value) :
      GivesTwice shape (.arr (before ++ value :: after))
  | inItem {item : Shape} {value : Document} {before after : List Document}
      (h : GivesTwice item value) : GivesTwice (.list item) (.arr (before ++ value :: after))
  | inOptional {inner : Shape} {value : Document} (h : GivesTwice inner value) :
      GivesTwice (.optional inner) value

end Shape

namespace Shape

/-- A rewritten document breaks off no more than before. -/
theorem Rewrites.isWhole {shape : Shape} {document document' : Document}
    (h : shape.Rewrites document document') : document.isWhole = true → document'.isWhole = true := by
  induction h with
  | inOptional _ ih => exact ih
  | inPosition _ _ ih | inItem _ ih =>
      simp only [Document.isWhole_arr_iff, List.forall_mem_append, List.forall_mem_cons]
      exact fun ⟨hbefore, hvalue, hafter⟩ => ⟨hbefore, ih hvalue, hafter⟩
  | respell => exact id
  | reorder _ h =>
      simp only [Document.isWhole_obj_iff]
      exact fun hentries entry hentry => hentries entry (h.mem_iff.mpr hentry)
  | respellKey => simp [Document.isWhole_obj_iff]
  | rename => simp only [Document.isWhole_obj_iff, List.forall_mem_append, List.forall_mem_cons, imp_self]
  | add _ _ hvalue =>
      simp only [Document.isWhole_obj_iff, List.forall_mem_append, List.forall_mem_cons]
      exact fun ⟨hbefore, hafter⟩ => ⟨hbefore, hvalue, hafter⟩
  | drop =>
      simp only [Document.isWhole_obj_iff, List.forall_mem_append, List.forall_mem_cons]
      exact fun ⟨hbefore, _, hafter⟩ => ⟨hbefore, hafter⟩
  | inField _ _ _ ih =>
      simp only [Document.isWhole_obj_iff, List.forall_mem_append, List.forall_mem_cons]
      exact fun ⟨hbefore, hvalue, hafter⟩ => ⟨hbefore, ih hvalue, hafter⟩

/-- Nothing is rewritten to null or from it. -/
theorem Rewrites.ne_null {shape : Shape} {document document' : Document}
    (h : shape.Rewrites document document') : document ≠ .null ∧ document' ≠ .null := by
  induction h with
  | inOptional _ ih => exact ih
  | _ => simp

theorem GivesTwice.ne_null {shape : Shape} {document : Document} (h : shape.GivesTwice document) :
    document ≠ .null := by
  induction h with
  | inOptional _ ih => exact ih
  | _ => simp

end Shape

end FederatedMetrics
