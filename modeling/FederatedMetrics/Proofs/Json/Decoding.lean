import FederatedMetrics.Proofs.Json.Fields
import FederatedMetrics.Proofs.Json.Printed

/-!
# Decoding values and their texts

A decoder reads a value if it finds it in the document of a JSON value whenever the nesting allowance is
not below the depth of that. Decoders of records read a value if every field is found once, under one
of its names, or not at all where it has a value of its own. What is read from a value without floats is
read from its text too.
-/

namespace FederatedMetrics

namespace Json

variable {α β : Type}

mutual

/-- The number of arrays and objects inside each other. -/
def depth : Json → Nat
  | .arr items => itemsDepth items + 1
  | .obj entries => entriesDepth entries + 1
  | _ => 0

def itemsDepth : List Json → Nat
  | [] => 0
  | item :: rest => max item.depth (itemsDepth rest)

def entriesDepth : List (String × Json) → Nat
  | [] => 0
  | (_, value) :: rest => max value.depth (entriesDepth rest)

end

theorem depth_le_itemsDepth {items : List Json} {item : Json} (h : item ∈ items) :
    item.depth ≤ itemsDepth items := by
  induction items with
  | nil => cases h
  | cons first rest ih =>
      rw [itemsDepth]
      rcases List.mem_cons.mp h with rfl | h
      · exact Nat.le_max_left _ _
      · exact Nat.le_trans (ih h) (Nat.le_max_right _ _)

theorem entriesDepth_eq (entries : List (String × Json)) :
    entriesDepth entries = itemsDepth (entries.map (·.2)) := by
  induction entries with
  | nil => rfl
  | cons entry rest ih => rw [entriesDepth, ih, List.map_cons, itemsDepth]

theorem depth_lt_of_mem_items {items : List Json} {item : Json} (h : item ∈ items) :
    item.depth < (arr items).depth :=
  Nat.lt_succ_of_le (depth_le_itemsDepth h)

theorem depth_le_entriesDepth {entries : List (String × Json)} {entry : String × Json}
    (h : entry ∈ entries) : entry.2.depth ≤ entriesDepth entries := by
  rw [entriesDepth_eq]
  exact depth_le_itemsDepth (List.mem_map_of_mem h)

theorem depth_lt_of_mem_entries {entries : List (String × Json)} {entry : String × Json}
    (h : entry ∈ entries) : entry.2.depth < (obj entries).depth :=
  Nat.lt_succ_of_le (depth_le_entriesDepth h)

/-- A decoder reads something from a value under every nesting allowance that suffices for it. -/
def Reads (decode : Decoder α) (value : Json) (x : α) : Prop :=
  ∀ nesting, value.depth ≤ nesting → decode nesting (Document.ofJson value) = .ok x

theorem reads_text (s : String) : Reads text (.str s) s := fun _ _ => rfl

theorem reads_flag (b : Bool) : Reads flag (.bool b) b := fun _ _ => rfl

/-- Integers of 64 bits with sign. -/
def IsInt64 (n : Int) : Prop := -Int.pow 2 63 ≤ n ∧ n < Int.pow 2 63

theorem reads_int64 {n : Int} (h : IsInt64 n) : Reads int64 (.int n) n := fun _ _ => if_pos h

theorem isWord_of_isInt64 {n : Int} (h : IsInt64 n) : isWord n = true := by
  have hlow : -Int.pow 2 63 ≤ n := h.1
  have hhigh : n < Int.pow 2 63 := h.2
  have hpow : Int.pow 2 63 < Int.pow 2 64 := by decide
  simp only [isWord, Bool.and_eq_true, decide_eq_true_eq]
  exact ⟨hlow, by omega⟩

theorem reads_choice {names : List (String × α)} {name : String} {x : α}
    (h : names.lookup name = some x) : Reads (choice names) (.str name) x := by
  intro nesting _
  cases nesting <;> simp [choice, Document.ofJson, named, h]

theorem reads_nullable_null (decode : Decoder α) : Reads (nullable decode) .null none :=
  fun _ _ => rfl

theorem reads_nullable {decode : Decoder α} {value : Json} {x : α} (hne : value ≠ .null)
    (h : Reads decode value x) : Reads (nullable decode) value (some x) := by
  intro nesting hdepth
  have hx : (decode nesting (Document.ofJson value)).map some = .ok (some x) := by
    rw [h nesting hdepth]
    rfl
  cases value with
  | null => exact absurd rfl hne
  | _ => exact hx

theorem reads_listOf {decode : Decoder α} {values : List Json} {xs : List α}
    (h : List.Forall₂ (Reads decode) values xs) : Reads (listOf decode) (.arr values) xs := by
  intro nesting hdepth
  cases nesting with
  | zero => exact absurd hdepth (Nat.not_succ_le_zero _)
  | succ nesting =>
      have hdepth : itemsDepth values ≤ nesting := Nat.le_of_succ_le_succ hdepth
      rw [Document.ofJson, listOf, Document.ofItems_eq_map]
      apply mapM_eq_ok_iff.mpr
      rw [List.forall₂_map_left_iff]
      have hitems := (List.forall₂_and_left _ _).mpr
        ⟨fun value hvalue => Nat.le_trans (depth_le_itemsDepth hvalue) hdepth, h⟩
      exact hitems.imp fun value x hx => hx.2 nesting hx.1

mutual

theorem isWhole_ofJson : ∀ value : Json, (Document.ofJson value).isWhole = true
  | .null => rfl
  | .bool _ => rfl
  | .int _ => rfl
  | .float _ => rfl
  | .str _ => rfl
  | .arr items => itemsWhole_ofItems items
  | .obj entries => entriesWhole_ofEntries entries

theorem itemsWhole_ofItems : ∀ items : List Json, Document.itemsWhole (Document.ofItems items) = true
  | [] => rfl
  | item :: rest => by
      rw [Document.ofItems, Document.itemsWhole, isWhole_ofJson item, itemsWhole_ofItems rest]
      rfl

theorem entriesWhole_ofEntries :
    ∀ entries : List (String × Json), Document.entriesWhole (Document.ofEntries entries) = true
  | [] => rfl
  | (_, value) :: rest => by
      rw [Document.ofEntries, Document.entriesWhole, isWhole_ofJson value,
        entriesWhole_ofEntries rest]
      rfl

end

/-! ## Records -/

theorem FieldResult.map_eq_value {f : α → β} {result : FieldResult α} {x : α}
    (h : result = .value x) : f <$> result = .value (f x) := by
  subst h
  rfl

theorem FieldResult.seq_eq_value {f : FieldResult (α → β)} {result : FieldResult α} {g : α → β}
    {x : α} (hf : f = .value g) (h : result = .value x) : f <*> result = .value (g x) := by
  subst hf h
  rfl

/-- The fields of an object. -/
def Fields.ofObject (entries : List (String × Json)) (nesting : Nat) : Fields :=
  ⟨true, Document.ofEntries entries, nesting⟩

/-- What is given for a field is what stands under its names. -/
theorem Fields.map_given_ofObject (entries : List (String × Json)) (nesting position : Nat)
    (names : List String) :
    ((Fields.ofObject entries nesting).given position names).map (·.2) =
      (entries.filter fun entry => names.contains entry.1).map fun entry =>
        Document.ofJson entry.2 := by
  have hfound := Fields.found_object (Document.ofEntries entries) nesting position names
  rw [under, Document.ofEntries_eq_map, List.filter_map, List.map_map] at hfound
  rw [ofObject, Document.ofEntries_eq_map]
  exact hfound

/-- A field that is found once has the value that its decoder reads. -/
theorem Fields.read_eq_value {entries : List (String × Json)} {names : List String} {key : String}
    {value : Json} {decode : Decoder α} {x : α}
    (hentry : (entries.filter fun entry => names.contains entry.1) = [(key, value)])
    (h : Reads decode value x) {nesting : Nat} (hdepth : entriesDepth entries ≤ nesting)
    (position : Nat) (absent : FieldResult α) :
    (Fields.ofObject entries nesting).read position names decode absent = .value x := by
  have hgiven := Fields.map_given_ofObject entries nesting position names
  rw [hentry, List.map_singleton] at hgiven
  obtain ⟨⟨place, document⟩, hgiven, rfl⟩ := List.map_eq_singleton_iff.mp hgiven
  have hmem : (key, value) ∈ entries := List.mem_of_mem_filter (hentry ▸ List.mem_singleton_self _)
  have hvalue : value.depth ≤ nesting := Nat.le_trans (depth_le_entriesDepth hmem) hdepth
  have hx : decode (Fields.ofObject entries nesting).nesting (Document.ofJson value) = .ok x :=
    h nesting hvalue
  rw [read, hgiven]
  simp only [hx]
  rfl

/-- A field that is not found is absent. -/
theorem Fields.read_eq_absent {entries : List (String × Json)} {names : List String}
    (hentry : (entries.filter fun entry => names.contains entry.1) = []) (decode : Decoder α)
    (nesting position : Nat) (absent : FieldResult α) :
    (Fields.ofObject entries nesting).read position names decode absent = absent := by
  have hgiven := Fields.map_given_ofObject entries nesting position names
  rw [hentry, List.map_nil, List.map_eq_nil_iff] at hgiven
  rw [read, hgiven]

/-- A record is read if its fields are. -/
theorem reads_record {arity : Nat} {read : Fields → FieldResult α} {entries : List (String × Json)}
    {x : α}
    (h : ∀ nesting, entriesDepth entries ≤ nesting → read (.ofObject entries nesting) = .value x) :
    Reads (record arity read) (.obj entries) x := by
  intro nesting hdepth
  cases nesting with
  | zero => exact absurd hdepth (Nat.not_succ_le_zero _)
  | succ nesting =>
      have hsound : (Fields.ofObject entries nesting).faultPlace? arity = none := by
        rw [Fields.faultPlace?, Fields.ofObject, if_pos rfl, List.findIdx?_eq_none_iff]
        intro entry hentry
        rw [Document.ofEntries_eq_map] at hentry
        obtain ⟨entry, -, rfl⟩ := List.mem_map.mp hentry
        simp [isWhole_ofJson]
      have hread := h nesting (Nat.le_of_succ_le_succ hdepth)
      calc record arity read (nesting + 1) (Document.ofJson (.obj entries))
          = ((read (.ofObject entries nesting)).withFault .malformed
              ((Fields.ofObject entries nesting).faultPlace? arity)).toExcept := rfl
        _ = .ok x := by rw [hread, hsound]; rfl

/-! ## Texts -/

/-- What is read from a value without floats is read from its text too, unless it is nested too
deeply. -/
theorem decodeText_print {decode : Decoder α} {value : Json} {x : α} (h : Reads decode value x)
    (hexact : value.IsExact) (hdepth : value.depth ≤ maxNesting) :
    decodeText decode value.print = .ok x := by
  have hx := h maxNesting hdepth
  simp only [decodeText, Document.ofText_print hexact, hx]
  rfl

end Json

end FederatedMetrics
