import FederatedMetrics.Proofs.Query.Shape
import Mathlib.Data.List.Nodup

/-!
# Decoders that go by a shape

A decoder that goes by a shape reads the same from a document and from what the document is rewritten to,
and nothing from a document in which a record gives a field twice. Choices, lists and records go by their
shapes: what is found for a field changes only with a rewriting of that field.
-/

namespace FederatedMetrics

open Json

variable {α β : Type}

namespace Shape

/-- A decoder reads the same from a rewritten document, and it refuses fields that are given twice. -/
structure Governs (shape : Shape) (decode : Decoder α) : Prop where
  kept : ∀ {document document' : Document}, shape.Rewrites document document' →
    ∀ {nesting : Nat} {x : α}, decode nesting document = .ok x → decode nesting document' = .ok x
  refused : ∀ {document : Document}, shape.GivesTwice document →
    ∀ (nesting : Nat) (x : α), decode nesting document ≠ .ok x

/-! ## Values inside records -/

/-- Whether documents of a shape have no other documents inside. -/
def isFlat : Shape → Bool
  | .filter => false
  | .groupBy => false
  | .query => false
  | .group => false
  | .list _ => false
  | .optional _ => false
  | _ => true

theorem fields_eq_nil_of_isFlat {shape : Shape} (hflat : shape.isFlat = true) :
    shape.fields = [] := by
  cases shape <;> first | rfl | cases hflat

theorem not_givesTwice_of_isFlat {shape : Shape} (hflat : shape.isFlat = true) (document : Document) :
    ¬ shape.GivesTwice document := by
  have hfields := fields_eq_nil_of_isFlat hflat
  intro h
  cases h with
  | inItem => cases hflat
  | inOptional => cases hflat
  | _ => simp_all

/-- In a flat document nothing but the name of a choice is rewritten. -/
theorem Rewrites.of_isFlat {shape : Shape} (hflat : shape.isFlat = true)
    {document document' : Document} (h : shape.Rewrites document document') :
    ∃ names ∈ shape.synonyms, ∃ name ∈ names, ∃ name' ∈ names,
      (document = .str name ∧ document' = .str name') ∨
        ∃ value, document = .obj [(some name, value)] ∧ document' = .obj [(some name', value)] := by
  have hfields := fields_eq_nil_of_isFlat hflat
  cases h with
  | respell hnames hname hname' => exact ⟨_, hnames, _, hname, _, hname', .inl ⟨rfl, rfl⟩⟩
  | respellKey hnames hname hname' =>
      exact ⟨_, hnames, _, hname, _, hname', .inr ⟨_, rfl, rfl⟩⟩
  | inItem => cases hflat
  | inOptional => cases hflat
  | _ => simp_all

/-- Where names have no other spelling there is nothing to rewrite. -/
theorem governs_of_isFlat {shape : Shape} (hflat : shape.isFlat = true)
    (hsynonyms : shape.synonyms = []) (decode : Decoder α) : shape.Governs decode where
  kept h := by
    obtain ⟨names, hnames, -⟩ := h.of_isFlat hflat
    simp [hsynonyms] at hnames
  refused h := absurd h (not_givesTwice_of_isFlat hflat _)

/-- A choice with the same thing under all spellings of a name. -/
theorem governs_choice {shape : Shape} (hflat : shape.isFlat = true) {names : List (String × α)}
    (hsame : ∀ spellings ∈ shape.synonyms, ∀ name ∈ spellings, ∀ name' ∈ spellings,
      names.lookup name = names.lookup name') : shape.Governs (choice names) where
  kept h := by
    intro nesting x hx
    obtain ⟨spellings, hspellings, name, hname, name', hname', h⟩ := h.of_isFlat hflat
    have hlookup := hsame spellings hspellings name hname name' hname'
    rcases h with ⟨rfl, rfl⟩ | ⟨value, rfl, rfl⟩
    · simpa [choice, named, hlookup] using hx
    · cases nesting with
      | zero => cases hx
      | succ nesting => simpa [choice, named, hlookup] using hx
  refused h := absurd h (not_givesTwice_of_isFlat hflat _)

theorem mapM_append_cons_eq_ok_iff {f : β → Except DecodeError α} {before after : List β} {b : β}
    {xs : List α} :
    (before ++ b :: after).mapM f = .ok xs ↔ ∃ x, f b = .ok x ∧ ∃ firsts lasts,
      before.mapM f = .ok firsts ∧ after.mapM f = .ok lasts ∧ firsts ++ x :: lasts = xs := by
  rw [List.mapM_append, List.mapM_cons]
  simp only [bind_eq_ok_iff, pure, Except.pure, Except.ok.injEq]
  constructor
  · rintro ⟨firsts, hfirsts, _, ⟨x, hx, lasts, hlasts, rfl⟩, rfl⟩
    exact ⟨x, hx, firsts, lasts, hfirsts, hlasts, rfl⟩
  · rintro ⟨x, hx, firsts, lasts, hfirsts, hlasts, rfl⟩
    exact ⟨firsts, hfirsts, _, ⟨x, hx, lasts, hlasts, rfl⟩, rfl⟩

theorem governs_listOf {item : Shape} {decode : Decoder α} (h : item.Governs decode) :
    (Shape.list item).Governs (listOf decode) where
  kept hrewrites := by
    intro nesting x hx
    cases hrewrites with
    | inItem hvalue =>
        cases nesting with
        | zero => cases hx
        | succ nesting =>
            obtain ⟨y, hy, hrest⟩ := mapM_append_cons_eq_ok_iff.mp hx
            exact mapM_append_cons_eq_ok_iff.mpr ⟨y, h.kept hvalue hy, hrest⟩
    | _ => simp [synonyms, fields] at *
  refused htwice := by
    intro nesting x hx
    cases htwice with
    | inItem hvalue =>
        cases nesting with
        | zero => cases hx
        | succ nesting =>
            obtain ⟨y, hy, -⟩ := mapM_append_cons_eq_ok_iff.mp hx
            exact h.refused hvalue _ _ hy
    | _ => simp [fields] at *

theorem nullable_eq_ok_iff {decode : Decoder α} {nesting : Nat} {document : Document}
    (hne : document ≠ .null) {y : Option α} :
    nullable decode nesting document = .ok y ↔ ∃ x, decode nesting document = .ok x ∧ some x = y := by
  cases document <;> first
    | exact absurd rfl hne
    | cases h : decode nesting _ <;> simp [nullable, h, Except.map]

theorem governs_nullable {inner : Shape} {decode : Decoder α} (h : inner.Governs decode) :
    (Shape.optional inner).Governs (nullable decode) where
  kept hrewrites := by
    intro nesting x hx
    cases hrewrites with
    | inOptional hvalue =>
        obtain ⟨y, hy, rfl⟩ := (nullable_eq_ok_iff hvalue.ne_null.1).mp hx
        exact (nullable_eq_ok_iff hvalue.ne_null.2).mpr ⟨y, h.kept hvalue hy, rfl⟩
    | _ => simp [synonyms, fields] at *
  refused htwice := by
    intro nesting x hx
    cases htwice with
    | inOptional hvalue =>
        obtain ⟨y, hy, -⟩ := (nullable_eq_ok_iff hvalue.ne_null).mp hx
        exact h.refused hvalue _ _ hy
    | _ => simp [fields] at *

/-! ## Fields -/

/-- What happens to the documents that are found for a field when a record is rewritten at one place. -/
inductive FieldRewrites (field : FieldForm) : List Document → List Document → Prop
  | reorder {found found' : List Document} (h : found.Perm found') : FieldRewrites field found found'
  | drop {value : Document} {before after : List Document} (hvalue : value ∈ field.idle) :
      FieldRewrites field (before ++ value :: after) (before ++ after)
  | inside {value value' : Document} {before after : List Document}
      (h : field.shape.Rewrites value value') :
      FieldRewrites field (before ++ value :: after) (before ++ value' :: after)

/-- A rewriting of what is found for the fields of a record. -/
structure RecordRewrites (forms : List FieldForm) (f f' : Fields) : Prop where
  nesting_eq : f'.nesting = f.nesting
  found : ∀ position field, forms[position]? = some field →
    FieldRewrites field (f.found position field.names) (f'.found position field.names)

/-- A field that is given twice, or whose document has such a field inside. -/
def Spoilt (field : FieldForm) (found : List Document) : Prop :=
  2 ≤ found.length ∨ ∃ document ∈ found, field.shape.GivesTwice document

theorem FieldRewrites.of_nil {field : FieldForm} {found found' : List Document}
    (h : FieldRewrites field found found') (hnone : found = []) : found' = [] := by
  cases h with
  | reorder h => exact List.perm_nil.mp (hnone ▸ h.symm)
  | drop => simp at hnone
  | inside => simp at hnone

/-- One document stays, or it says nothing and is left out, or it is rewritten inside. -/
theorem FieldRewrites.of_singleton {field : FieldForm} {found found' : List Document}
    {document : Document} (h : FieldRewrites field found found') (hone : found = [document]) :
    found' = [document] ∨ (document ∈ field.idle ∧ found' = []) ∨
      ∃ document', field.shape.Rewrites document document' ∧ found' = [document'] := by
  have hsingle {value : Document} {before after : List Document}
      (h : before ++ value :: after = [document]) : before = [] ∧ value = document ∧ after = [] := by
    cases before <;> simp_all
  cases h with
  | reorder h => exact .inl (List.perm_singleton.mp (hone ▸ h.symm))
  | drop hvalue =>
      obtain ⟨rfl, rfl, rfl⟩ := hsingle hone
      exact .inr (.inl ⟨hvalue, rfl⟩)
  | inside h =>
      obtain ⟨rfl, rfl, rfl⟩ := hsingle hone
      exact .inr (.inr ⟨_, h, rfl⟩)

theorem read_kept {field : FieldForm} {decode : Decoder α} (hdecode : field.shape.Governs decode)
    {f f' : Fields} (hnesting : f'.nesting = f.nesting) {position : Nat}
    (hfound : FieldRewrites field (f.found position field.names) (f'.found position field.names))
    {absent absent' : FieldResult α} {x : α} (habsent : absent = .value x → absent' = .value x)
    (hidle : ∀ document ∈ field.idle, ∀ nesting, decode nesting document = .ok x →
      absent' = .value x)
    (h : f.read position field.names decode absent = .value x) :
    f'.read position field.names decode absent' = .value x := by
  rw [Fields.read_eq_value_iff, hnesting]
  rcases Fields.read_eq_value_iff.mp h with ⟨hnone, h⟩ | ⟨document, hone, h⟩
  · exact .inl ⟨hfound.of_nil hnone, habsent h⟩
  · rcases hfound.of_singleton hone with hsame | ⟨hdocument, hnone⟩ | ⟨document', hrewrites, hone'⟩
    · exact .inr ⟨document, hsame, h⟩
    · exact .inl ⟨hnone, hidle document hdocument _ h⟩
    · exact .inr ⟨document', hone', hdecode.kept hrewrites h⟩

theorem read_refused {field : FieldForm} {decode : Decoder α} (hdecode : field.shape.Governs decode)
    {f : Fields} {position : Nat} (hspoilt : Spoilt field (f.found position field.names))
    (absent : FieldResult α) (x : α) : f.read position field.names decode absent ≠ .value x := by
  intro h
  rcases Fields.read_eq_value_iff.mp h with ⟨hnone, -⟩ | ⟨document, hone, h⟩
  · simp [Spoilt, hnone] at hspoilt
  · rcases hspoilt with hlength | ⟨document', hmem, htwice⟩
    · simp [hone] at hlength
    · obtain rfl : document' = document := by simpa [hone] using hmem
      exact hdecode.refused htwice _ _ h

/-- A reader of the first fields of a record reads the same from a rewritten record, and it refuses a
record in which one of these fields is spoilt. -/
structure Reading (forms : List FieldForm) (count : Nat) (read : Fields → FieldResult α) : Prop where
  kept : ∀ {f f' : Fields}, RecordRewrites forms f f' →
    ∀ {x : α}, read f = .value x → read f' = .value x
  refused : ∀ {f : Fields} {position : Nat} {field : FieldForm}, position < count →
    forms[position]? = some field → Spoilt field (f.found position field.names) →
      ∀ x, read f ≠ .value x

theorem Reading.start (forms : List FieldForm) (x : α) :
    Reading forms 0 fun _ => (pure x : FieldResult α) where
  kept _ _ h := h
  refused h := absurd h (Nat.not_lt_zero _)

/-- One field after others. What holds of a missing field may depend on nothing but the field. -/
theorem Reading.field {forms : List FieldForm} {count : Nat} {read : Fields → FieldResult (α → β)}
    (h : Reading forms count read) {field : FieldForm} (hfield : forms[count]? = some field)
    {decode : Decoder α} (hdecode : field.shape.Governs decode) {absent : Fields → FieldResult α}
    (habsent : ∀ f f' x, absent f = .value x → absent f' = .value x)
    (hidle : ∀ document ∈ field.idle, ∀ nesting x, decode nesting document = .ok x →
      ∀ f, absent f = .value x) :
    Reading forms (count + 1) fun f => read f <*> f.read count field.names decode (absent f) where
  kept {f f'} hrewrites {y} hy := by
    obtain ⟨g, x, hg, hx, rfl⟩ := FieldResult.apply_eq_value_iff.mp hy
    refine FieldResult.apply_eq_value_iff.mpr ⟨g, x, h.kept hrewrites hg, ?_, rfl⟩
    exact read_kept hdecode hrewrites.nesting_eq (hrewrites.found count field hfield)
      (habsent f f' x) (fun document hdocument nesting hread =>
        hidle document hdocument nesting x hread f') hx
  refused {f position field'} hposition hfield' hspoilt y hy := by
    obtain ⟨g, x, hg, hx, -⟩ := FieldResult.apply_eq_value_iff.mp hy
    rcases Nat.lt_succ_iff_lt_or_eq.mp hposition with hbefore | rfl
    · exact h.refused hbefore hfield' hspoilt g hg
    · obtain rfl : field' = field := Option.some.inj (hfield'.symm.trans hfield)
      exact read_refused hdecode hspoilt _ x hx

theorem Reading.required {forms : List FieldForm} {count : Nat}
    {read : Fields → FieldResult (α → β)} (h : Reading forms count read) {names : List String} {shape : Shape}
    (hfield : forms[count]? = some ⟨names, shape, []⟩) {decode : Decoder α}
    (hdecode : shape.Governs decode) :
    Reading forms (count + 1) fun f => read f <*> f.required count names decode :=
  h.field hfield hdecode nofun nofun

theorem Reading.withDefault {forms : List FieldForm} {count : Nat}
    {read : Fields → FieldResult (α → β)} (h : Reading forms count read) {names : List String}
    {shape : Shape} (hfield : forms[count]? = some ⟨names, shape, []⟩) {decode : Decoder α}
    (hdecode : shape.Governs decode) (otherwise : α) :
    Reading forms (count + 1) fun f => read f <*> f.withDefault count names decode otherwise :=
  h.field hfield hdecode (fun _ _ _ => id) nofun

/-- A field that may be left out where its document says nothing. -/
theorem Reading.withIdle {forms : List FieldForm} {count : Nat}
    {read : Fields → FieldResult (α → β)} (h : Reading forms count read) {names : List String}
    {shape : Shape} {idle : List Document} (hfield : forms[count]? = some ⟨names, shape, idle⟩)
    {decode : Decoder α} (hdecode : shape.Governs decode) {otherwise : α}
    (hidle : ∀ document ∈ idle, ∀ nesting, decode nesting document = .ok otherwise) :
    Reading forms (count + 1) fun f => read f <*> f.withDefault count names decode otherwise := by
  refine h.field hfield hdecode (fun _ _ _ => id) fun document hdocument nesting x hx f => ?_
  rw [hidle document hdocument nesting] at hx
  rw [Except.ok.inj hx]

/-! ## Records -/

theorem synonyms_eq_nil_of_record {shape : Shape} (hrecord : shape.fields ≠ []) :
    shape.synonyms = [] := by
  cases shape <;> first | rfl | exact absurd rfl hrecord

theorem nodup_names (shape : Shape) : (shape.fields.flatMap (·.names)).Nodup := by
  cases shape with
  | filter | groupBy | query | group => decide +kernel
  | _ => exact .nil

/-- No name belongs to two fields of a record. -/
theorem field_unique {shape : Shape} {field field' : FieldForm} (hfield : field ∈ shape.fields)
    (hfield' : field' ∈ shape.fields) {key : String} (hkey : key ∈ field.names)
    (hkey' : key ∈ field'.names) : field = field' := by
  have hdisjoint := (List.nodup_flatMap.mp (nodup_names shape)).2
  have : Std.Symm (Function.onFun List.Disjoint FieldForm.names) :=
    ⟨fun _ _ h _ hkey hkey' => h hkey' hkey⟩
  by_contra hne
  exact hdisjoint.forall hfield hfield' hne hkey hkey'

theorem FieldRewrites.refl {field : FieldForm} (found : List Document) :
    FieldRewrites field found found := .reorder (.refl _)

/-- What is found for a field when the entries of its record are rewritten. The rewritten entry belongs to
that field, or it is found neither before nor after. -/
theorem Rewrites.under {shape : Shape} (hrecord : shape.fields ≠ [])
    {entries entries' : List (Option String × Document)}
    (h : shape.Rewrites (.obj entries) (.obj entries')) {field : FieldForm}
    (hfield : field ∈ shape.fields) :
    FieldRewrites field (Json.under field.names entries) (Json.under field.names entries') := by
  cases h with
  | respellKey hnames => simp [synonyms_eq_nil_of_record hrecord] at hnames
  | inOptional => exact absurd rfl hrecord
  | reorder _ h => exact .reorder (under_perm h field.names)
  | @add _ key value before after _ hkey =>
      rw [under_append, under_append, under_cons_of_not_mem (hkey field hfield)]
      exact .refl _
  | @rename _ changed key key' value before after hchanged hkey hkey' =>
      rw [under_append, under_append]
      by_cases hmem : key ∈ field.names
      · obtain rfl := field_unique hfield hchanged hmem hkey
        rw [under_cons_of_mem hkey, under_cons_of_mem hkey']
        exact .refl _
      · have hmem' : key' ∉ field.names := fun hmem' =>
          hmem (field_unique hfield hchanged hmem' hkey' ▸ hkey)
        rw [under_cons_of_not_mem hmem, under_cons_of_not_mem hmem']
        exact .refl _
  | @drop _ changed key value before after hchanged hkey hvalue =>
      rw [under_append, under_append]
      by_cases hmem : key ∈ field.names
      · obtain rfl := field_unique hfield hchanged hmem hkey
        rw [under_cons_of_mem hkey]
        exact .drop hvalue
      · rw [under_cons_of_not_mem hmem]
        exact .refl _
  | @inField _ changed key value value' before after hchanged hkey h =>
      rw [under_append, under_append]
      by_cases hmem : key ∈ field.names
      · obtain rfl := field_unique hfield hchanged hmem hkey
        rw [under_cons_of_mem hkey, under_cons_of_mem hkey]
        exact .inside h
      · rw [under_cons_of_not_mem hmem, under_cons_of_not_mem hmem]
        exact .refl _

theorem Rewrites.entriesSound {shape : Shape} (hrecord : shape.fields ≠ [])
    {entries entries' : List (Option String × Document)}
    (h : shape.Rewrites (.obj entries) (.obj entries')) (hsound : EntriesSound entries) :
    EntriesSound entries' := by
  rw [entriesSound_iff] at hsound ⊢
  refine ⟨?_, h.isWhole hsound.2⟩
  have hkeys := hsound.1
  cases h with
  | respellKey hnames => simp [synonyms_eq_nil_of_record hrecord] at hnames
  | inOptional => exact absurd rfl hrecord
  | reorder _ h => exact fun entry hentry => hkeys entry (h.mem_iff.mpr hentry)
  | rename | inField =>
      rw [List.forall_mem_append, List.forall_mem_cons] at hkeys ⊢
      exact ⟨hkeys.1, rfl, hkeys.2.2⟩
  | add =>
      rw [List.forall_mem_append] at hkeys
      rw [List.forall_mem_append, List.forall_mem_cons]
      exact ⟨hkeys.1, rfl, hkeys.2⟩
  | drop =>
      rw [List.forall_mem_append, List.forall_mem_cons] at hkeys
      rw [List.forall_mem_append]
      exact ⟨hkeys.1, hkeys.2.2⟩

/-- What is found for the fields of an array when one of its items is rewritten. -/
theorem Rewrites.position {shape : Shape} {field : FieldForm} {value value' : Document}
    {before after : List Document} (hfield : shape.fields[before.length]? = some field)
    (h : field.shape.Rewrites value value') {position : Nat} {read : FieldForm}
    (hread : shape.fields[position]? = some read) :
    FieldRewrites read (before ++ value :: after)[position]?.toList
      (before ++ value' :: after)[position]?.toList := by
  rcases Nat.lt_trichotomy position before.length with hbefore | rfl | hafter
  · rw [List.getElem?_append_left hbefore, List.getElem?_append_left hbefore]
    exact .refl _
  · obtain rfl : field = read := Option.some.inj (hfield.symm.trans hread)
    have hinside : FieldRewrites field ([] ++ [value]) ([] ++ [value']) := .inside h
    simpa using hinside
  · obtain ⟨later, rfl⟩ := Nat.exists_eq_add_of_lt hafter
    have hlater : before.length + later + 1 - before.length = later + 1 := by omega
    rw [List.getElem?_append_right (by omega), List.getElem?_append_right (by omega), hlater]
    exact .refl _

theorem Reading.kept_object {shape : Shape} (hrecord : shape.fields ≠ [])
    {read : Fields → FieldResult α} (h : Reading shape.fields shape.fields.length read)
    {entries entries' : List (Option String × Document)}
    (hrewrites : shape.Rewrites (.obj entries) (.obj entries')) {nesting : Nat} {x : α}
    (hx : record shape.fields.length read nesting (.obj entries) = .ok x) :
    record shape.fields.length read nesting (.obj entries') = .ok x := by
  obtain ⟨inner, rfl, hread, hsound⟩ := record_object_eq_ok_iff.mp hx
  have hfields : RecordRewrites shape.fields ⟨true, entries, inner⟩ ⟨true, entries', inner⟩ := by
    refine ⟨rfl, fun position field hfield => ?_⟩
    rw [Fields.found_object, Fields.found_object]
    exact hrewrites.under hrecord (List.mem_of_getElem? hfield)
  exact record_object_eq_ok_iff.mpr
    ⟨inner, rfl, h.kept hfields hread, hrewrites.entriesSound hrecord hsound⟩

theorem Reading.kept_position {shape : Shape} {read : Fields → FieldResult α}
    (h : Reading shape.fields shape.fields.length read) {field : FieldForm}
    {value value' : Document} {before after : List Document}
    (hfield : shape.fields[before.length]? = some field)
    (hvalue : field.shape.Rewrites value value') {nesting : Nat} {x : α}
    (hx : record shape.fields.length read nesting (.arr (before ++ value :: after)) = .ok x) :
    record shape.fields.length read nesting (.arr (before ++ value' :: after)) = .ok x := by
  obtain ⟨inner, rfl, hread, hlength⟩ := record_array_eq_ok_iff.mp hx
  have hfields : RecordRewrites shape.fields
      ⟨false, (before ++ value :: after).map (none, ·), inner⟩
      ⟨false, (before ++ value' :: after).map (none, ·), inner⟩ := by
    refine ⟨rfl, fun position other hother => ?_⟩
    rw [Fields.found_array, Fields.found_array]
    exact Rewrites.position hfield hvalue hother
  exact record_array_eq_ok_iff.mpr ⟨inner, rfl, h.kept hfields hread, by simpa using hlength⟩

theorem Reading.refused_object {shape : Shape} {read : Fields → FieldResult α}
    (h : Reading shape.fields shape.fields.length read) {field : FieldForm}
    (hfield : field ∈ shape.fields) {entries : List (Option String × Document)}
    (hspoilt : Spoilt field (Json.under field.names entries)) (nesting : Nat) (x : α) :
    record shape.fields.length read nesting (.obj entries) ≠ .ok x := by
  intro hx
  obtain ⟨inner, rfl, hread, -⟩ := record_object_eq_ok_iff.mp hx
  obtain ⟨position, hposition, hget⟩ := List.mem_iff_getElem.mp hfield
  refine h.refused hposition (List.getElem?_eq_some_iff.mpr ⟨hposition, hget⟩) ?_ x hread
  rw [Fields.found_object]
  exact hspoilt

/-- A record goes by its shape if a reader of all its fields does. -/
theorem governs_record {shape : Shape} (hrecord : shape.fields ≠ []) {read : Fields → FieldResult α}
    (h : Reading shape.fields shape.fields.length read) :
    shape.Governs (record shape.fields.length read) where
  kept hrewrites nesting x hx := by
    cases hrewrites with
    | respell hnames => simp [synonyms_eq_nil_of_record hrecord] at hnames
    | inItem => exact absurd rfl hrecord
    | inOptional => exact absurd rfl hrecord
    | inPosition hfield hvalue => exact h.kept_position hfield hvalue hx
    | respellKey hnames hname hname' =>
        exact h.kept_object hrecord (.respellKey hnames hname hname') hx
    | rename hfield hkey hkey' => exact h.kept_object hrecord (.rename hfield hkey hkey') hx
    | reorder _ hperm => exact h.kept_object hrecord (.reorder hrecord hperm) hx
    | add _ hkey hvalue => exact h.kept_object hrecord (.add hrecord hkey hvalue) hx
    | drop hfield hkey hvalue => exact h.kept_object hrecord (.drop hfield hkey hvalue) hx
    | inField hfield hkey hvalue => exact h.kept_object hrecord (.inField hfield hkey hvalue) hx
  refused htwice nesting x := by
    cases htwice with
    | inItem => exact absurd rfl hrecord
    | inOptional => exact absurd rfl hrecord
    | here hfield hkey hkey' =>
        refine h.refused_object hfield (.inl ?_) nesting x
        rw [under_append, under_cons_of_mem hkey, under_append, under_cons_of_mem hkey']
        simp only [List.length_append, List.length_cons]
        omega
    | @inField _ field key value before after hfield hkey hvalue =>
        refine h.refused_object hfield (.inr ⟨value, ?_, hvalue⟩) nesting x
        rw [under_append, under_cons_of_mem hkey]
        exact List.mem_append_right _ List.mem_cons_self
    | @inPosition _ field value before after hfield hvalue =>
        intro hx
        obtain ⟨inner, rfl, hread, -⟩ := record_array_eq_ok_iff.mp hx
        have hposition := (List.getElem?_eq_some_iff.mp hfield).1
        refine h.refused hposition hfield (.inr ⟨value, ?_, hvalue⟩) x hread
        rw [Fields.found_array]
        simp

/-! ## Whole documents and texts -/

/-- A decoder reads full and short forms alike: from a document that has been rewritten at any places, and
from its text, it reads what it read before, and where a record gives a field twice it reads nothing. -/
structure ReadsAlike (shape : Shape) (decode : Decoder α) : Prop where
  document : ∀ {document document' : Document},
    Relation.ReflTransGen shape.Rewrites document document' →
      ∀ {nesting : Nat} {x : α}, decode nesting document = .ok x → decode nesting document' = .ok x
  document_refused : ∀ {document : Document}, shape.GivesTwice document →
    ∀ nesting, ∃ error, decode nesting document = .error error
  text : ∀ {s s' : String} {document document' : Document},
    Document.ofText s = (document, true) → Document.ofText s' = (document', true) →
      Relation.ReflTransGen shape.Rewrites document document' →
        ∀ {x : α}, decodeText decode s = .ok x → decodeText decode s' = .ok x
  text_refused : ∀ {s : String} {document : Document} {isAlone : Bool},
    Document.ofText s = (document, isAlone) → shape.GivesTwice document →
      ∃ error, decodeText decode s = .error error

/-- A text with nothing behind its document is read as the document is. -/
theorem decodeText_of_alone {decode : Decoder α} {s : String} {document : Document}
    (hs : Document.ofText s = (document, true)) : decodeText decode s = decode maxNesting document := by
  cases h : decode maxNesting document <;>
    simp [decodeText, hs, h, bind, Except.bind, pure, Except.pure]

theorem Governs.readsAlike {shape : Shape} {decode : Decoder α} (h : shape.Governs decode) :
    shape.ReadsAlike decode := by
  have hdocument {document document' : Document}
      (hrewrites : Relation.ReflTransGen shape.Rewrites document document') {nesting : Nat} {x : α}
      (hx : decode nesting document = .ok x) : decode nesting document' = .ok x := by
    induction hrewrites with
    | refl => exact hx
    | tail _ hstep ih => exact h.kept hstep ih
  have hrefused {document : Document} (htwice : shape.GivesTwice document) (nesting : Nat) :
      ∃ error, decode nesting document = .error error :=
    not_exists_ok_iff.mp fun ⟨x, hx⟩ => h.refused htwice nesting x hx
  refine ⟨hdocument, hrefused, ?_, ?_⟩
  · intro s s' document document' hs hs' hrewrites x hx
    rw [decodeText_of_alone hs] at hx
    rw [decodeText_of_alone hs']
    exact hdocument hrewrites hx
  · intro s document isAlone hs htwice
    obtain ⟨error, herror⟩ := hrefused htwice maxNesting
    exact ⟨error, by simp [decodeText, hs, herror, bind, Except.bind]⟩

end Shape

end FederatedMetrics
