import FederatedMetrics.Proofs.Table.Columns
import FederatedMetrics.Proofs.Table.Combine

/-!
# Combining without reaching outside of a table

The combined view is built by cutting headers at the width of the key columns, reading cells at their
places and writing others. Here it is built once more with every such access checked, so that there is
no answer at all if one of them reaches outside. Members that are shaped like their plans are combined
without that, and fail to be combined only because of their key headers.
-/

namespace FederatedMetrics

namespace CombineMember

/-- The headers of the key columns, if the table has so many columns. -/
def keyHeaders? (m : CombineMember) : Option (List String) :=
  if m.width ≤ m.table.headers.length then some (m.table.headers.take m.width) else none

/-- The number of columns behind the key columns, unless there are fewer columns than that. -/
def metricCount? (m : CombineMember) : Option Nat :=
  if m.width ≤ m.table.headers.length then some (m.table.headers.length - m.width) else none

/-- The key of a row in the order of the combined table, if the row has all its cells. -/
def keyOf? (m : CombineMember) (headers : List String) (row : List Json) : Option (List String) := do
  let own ← m.keyHeaders?
  (headers.filterMap fun header => own.idxOf? header).mapM fun place => row[place]?.map Json.asText

end CombineMember

namespace Combine

/-- Write the metric cells of a row one by one behind an offset, if every cell that is read is there
and every one that is written over. -/
def writeCells? (offset width : Nat) (row : List Json) : Nat → List Json → Option (List Json)
  | 0, values => some values
  | count + 1, values => do
      let values ← writeCells? offset width row count values
      let cell ← row[width + count]?
      if offset + count < values.length then some (values.set (offset + count) cell) else none

/-- Join a row of a member with some metrics behind an offset. -/
def addRow? (headers : List String) (total offset count : Nat) (m : CombineMember)
    (joined : List (List String × List Json)) (row : List Json) :
    Option (List (List String × List Json)) := do
  let key ← m.keyOf? headers row
  let values ← writeCells? offset m.width row count
    ((Ordered.find? key joined).getD (List.replicate total (.ofFloat 0.0)))
  return Ordered.alter key (fun _ => values) joined

/-- Join the rows of members whose metrics start at an offset. -/
def addMembers? (headers : List String) (total : Nat) :
    Nat → List CombineMember → List (List String × List Json) →
      Option (List (List String × List Json))
  | _, [], joined => some joined
  | offset, m :: rest, joined => do
      let count ← m.metricCount?
      let joined ← m.table.rows.foldlM (addRow? headers total offset count m) joined
      addMembers? headers total (offset + count) rest joined

/-- The headers of the metric columns of members, unless one of them has other key headers. -/
def metricHeaders? (headers : List String) :
    List CombineMember → Option (Except Failure (List String))
  | [] => some (.ok [])
  | m :: rest => do
      let own ← m.keyHeaders?
      if Ordered.ofList own ≠ Ordered.ofList headers then return .error .differentKeys
      let count ← m.metricCount?
      let others ← metricHeaders? headers rest
      return others.map ((List.range count).map m.metricHeader ++ ·)

/-- Combine members that all have time buckets or all have none. -/
def partition? (members : List CombineMember) : Option (Except Failure (List ResultTable)) :=
  match members with
  | [] => some (.ok [])
  | first :: _ => do
      let headers ← first.keyHeaders?
      match ← metricHeaders? headers members with
      | .error f => return .error f
      | .ok metrics =>
          let joined ← addMembers? headers metrics.length 0 members []
          return .ok [⟨headers ++ metrics, joined.map fun entry => entry.1.map Json.str ++ entry.2⟩]

/-- Combine the members with time buckets, then the others. -/
def combine? (members : List CombineMember) : Option (Except Failure (List ResultTable)) := do
  match ← partition? (members.filter fun m => m.plan.layout.bucketed) with
  | .error f => return .error f
  | .ok bucketed =>
      let flat ← partition? (members.filter fun m => !m.plan.layout.bucketed)
      return flat.map (bucketed ++ ·)

end Combine

/-- Writing one more item comes to setting one more cell. -/
theorem overwrite_concat {α : Type} {place : Nat} {items cells : List α}
    (h : place + items.length < cells.length) (a : α) :
    overwrite place (items ++ [a]) cells = (overwrite place items cells).set (place + items.length) a := by
  have hfront : (cells.take place ++ items).length = place + items.length := by
    rw [List.length_append, List.length_take]
    omega
  rw [overwrite, overwrite, List.set_append_right _ _ (by omega), hfront, Nat.sub_self,
    List.drop_eq_getElem_cons h, List.set_cons_zero, List.length_append]
  simp [Nat.add_assoc]

/-- Elements that all have a result are processed. -/
theorem mapM_eq_some_map {α β : Type} {f : α → Option β} {g : α → β} {items : List α}
    (h : ∀ a ∈ items, f a = some (g a)) : items.mapM f = some (items.map g) := by
  induction items with
  | nil => rfl
  | cons a rest ih =>
      obtain ⟨ha, hrest⟩ := List.forall_mem_cons.mp h
      rw [List.mapM_cons, ha, ih hrest]
      rfl

namespace CombineMember

variable {m : CombineMember} {headers : List String} {row : List Json}

theorem IsShaped.keyHeaders?_eq (h : m.IsShaped) : m.keyHeaders? = some m.keyHeaders :=
  if_pos h.width_le

theorem IsShaped.metricCount?_eq (h : m.IsShaped) : m.metricCount? = some m.metricCount :=
  if_pos h.width_le

theorem IsShaped.length_row (h : m.IsShaped) (hrow : row ∈ m.table.rows) :
    row.length = m.width + m.metricCount := by
  have hwidth := h.width_le
  rw [ResultTable.length_of_isRectangular h.rectangular hrow, metricCount]
  omega

/-- A shaped member has all key cells in its rows. -/
theorem IsShaped.keyOf?_eq (h : m.IsShaped) (hkeys : m.HasKeys headers)
    (hrow : row ∈ m.table.rows) : m.keyOf? headers row = some (m.keyOf headers row) := by
  rw [keyOf?, h.keyHeaders?_eq]
  apply mapM_eq_some_map
  intro place hplace
  rw [filterMap_idxOf? fun header => (hkeys header).mpr] at hplace
  obtain ⟨header, hheader, rfl⟩ := List.mem_map.mp hplace
  have hlt : m.keyHeaders.idxOf header < row.length := by
    have hplace := List.idxOf_lt_length_of_mem ((hkeys header).mpr hheader)
    rw [h.length_keyHeaders] at hplace
    rw [h.length_row hrow]
    omega
  rw [List.getElem?_eq_getElem hlt]
  rfl

end CombineMember

namespace Combine

variable {headers : List String} {total offset : Nat} {members : List CombineMember}
  {m : CombineMember} {joined : List (List String × List Json)} {row : List Json}

/-- Cells are written one by one as all at once, if there are so many to be read and written over. -/
theorem writeCells?_eq {width count : Nat} {values : List Json} (hread : width + count ≤ row.length)
    (hwrite : offset + count ≤ values.length) :
    writeCells? offset width row count values =
      some (overwrite offset ((row.drop width).take count) values) := by
  induction count with
  | zero => simp [writeCells?, overwrite]
  | succ count ih =>
      have hbefore : ((row.drop width).take count).length = count := by
        rw [List.length_take, List.length_drop]
        omega
      have hnext : (row.drop width).take (count + 1) =
          (row.drop width).take count ++ [row[width + count]] := by
        rw [List.take_add_one, List.getElem?_drop, List.getElem?_eq_getElem (by omega)]
        rfl
      have hwritten : (overwrite offset ((row.drop width).take count) values).length =
          values.length := length_overwrite _ _ _ (by omega)
      have hroom : offset + ((row.drop width).take count).length < values.length := by omega
      have hconcat := overwrite_concat hroom row[width + count]
      rw [hbefore] at hconcat
      rw [writeCells?, ih (by omega) (by omega), List.getElem?_eq_getElem (by omega), hnext, hconcat]
      simp only [Option.bind_eq_bind, Option.bind_some, hwritten]
      exact if_pos (by omega)

/-- A row of a shaped member is joined without reaching outside, if there are columns for its metrics. -/
theorem addRow?_eq (hjoined : IsJoined headers total joined) (hm : m.IsShaped)
    (hkeys : m.HasKeys headers) (hroom : offset + m.metricCount ≤ total) (hrow : row ∈ m.table.rows) :
    addRow? headers total offset m.metricCount m joined row =
      some (addRow headers total offset m joined row) := by
  have hread : m.width + m.metricCount ≤ row.length := Nat.le_of_eq (hm.length_row hrow).symm
  have hwrite := (hjoined.length_getD (m.keyOf headers row)).symm ▸ hroom
  rw [addRow?, hm.keyOf?_eq hkeys hrow]
  have hadded : addRow headers total offset m joined row =
      Ordered.alter (m.keyOf headers row) (fun _ => overwrite offset (m.metricCells row)
        ((Ordered.find? (m.keyOf headers row) joined).getD (List.replicate total (.ofFloat 0.0))))
        joined :=
    Ordered.alter_eq_alter_find? _ _ _
  simp only [Option.bind_eq_bind, Option.bind_some, writeCells?_eq hread hwrite, hadded]
  rfl

theorem foldlM_addRow?_eq (hjoined : IsJoined headers total joined) (hm : m.IsShaped)
    (hkeys : m.HasKeys headers) (hroom : offset + m.metricCount ≤ total) {rows : List (List Json)}
    (hrows : ∀ row ∈ rows, row ∈ m.table.rows) :
    rows.foldlM (addRow? headers total offset m.metricCount m) joined =
      some (rows.foldl (addRow headers total offset m) joined) := by
  induction rows generalizing joined with
  | nil => rfl
  | cons row rest ih =>
      obtain ⟨hrow, hrest⟩ := List.forall_mem_cons.mp hrows
      rw [List.foldlM_cons, addRow?_eq hjoined hm hkeys hroom hrow]
      exact ih (hjoined.addRow hkeys hroom row) hrest

/-- Shaped members are joined without reaching outside. -/
theorem addMembers?_eq (hjoined : IsJoined headers total joined) (hshaped : ∀ m ∈ members, m.IsShaped)
    (hkeys : ∀ m ∈ members, m.HasKeys headers) (hroom : offset + metricTotal members ≤ total) :
    addMembers? headers total offset members joined =
      some (addMembers headers total offset members joined) := by
  induction members generalizing offset joined with
  | nil => rfl
  | cons m rest ih =>
      obtain ⟨hm, hrest⟩ := List.forall_mem_cons.mp hshaped
      obtain ⟨hmkeys, hrestkeys⟩ := List.forall_mem_cons.mp hkeys
      rw [metricTotal_cons] at hroom
      have hfits : offset + m.metricCount ≤ total := by omega
      have hrows := foldlM_addRow?_eq hjoined hm hmkeys hfits fun row hrow => hrow
      rw [addMembers?, hm.metricCount?_eq]
      simp only [Option.bind_eq_bind, Option.bind_some, hrows]
      exact ih (hjoined.addRows hmkeys hfits _) hrest hrestkeys (by omega)

open Classical in
/-- The headers of shaped members are cut without reaching outside. -/
theorem metricHeaders?_eq (hshaped : ∀ m ∈ members, m.IsShaped) :
    metricHeaders? headers members = some
      (if ∀ m ∈ members, m.HasKeys headers then .ok (members.flatMap CombineMember.metricHeaders)
      else .error .differentKeys) := by
  induction members with
  | nil => simp [metricHeaders?]
  | cons m rest ih =>
      obtain ⟨hm, hrest⟩ := List.forall_mem_cons.mp hshaped
      have hsame : Ordered.ofList m.keyHeaders = Ordered.ofList headers ↔ m.HasKeys headers :=
        Ordered.ofList_eq_ofList_iff _ _
      rw [metricHeaders?, hm.keyHeaders?_eq, hm.metricCount?_eq]
      simp only [Option.bind_eq_bind, Option.bind_some, ne_eq, hsame, ih hrest, List.forall_mem_cons]
      by_cases hkeys : m.HasKeys headers
      · by_cases hothers : ∀ m ∈ rest, m.HasKeys headers
        · rw [if_neg (not_not.mpr hkeys), if_pos hothers, if_pos ⟨hkeys, hothers⟩]
          rfl
        · rw [if_neg (not_not.mpr hkeys), if_neg hothers, if_neg fun h => hothers h.2]
          rfl
      · rw [if_pos hkeys, if_neg fun h => hkeys h.1]
        rfl

/-- Shaped members of one kind are combined without reaching outside. -/
theorem partition?_eq (hshaped : ∀ m ∈ members, m.IsShaped) :
    partition? members = some (partition members) := by
  cases members with
  | nil => rfl
  | cons first rest =>
      obtain ⟨hfirst, -⟩ := List.forall_mem_cons.mp hshaped
      rw [partition_cons, partition?, hfirst.keyHeaders?_eq]
      simp only [Option.bind_eq_bind, Option.bind_some, metricHeaders?_eq hshaped]
      by_cases hkeys : ∀ m ∈ first :: rest, m.HasKeys first.keyHeaders
      · have hroom : 0 + metricTotal (first :: rest) ≤ metricTotal (first :: rest) := by omega
        have hadd := addMembers?_eq isJoined_nil hshaped hkeys hroom
        rw [metricTotal] at hadd
        rw [if_pos hkeys, if_pos hkeys]
        simp only [hadd]
        rfl
      · rw [if_neg hkeys, if_neg hkeys]
        rfl

/-- Shaped members are combined without reaching outside. -/
theorem combine?_eq (hshaped : ∀ m ∈ members, m.IsShaped) :
    combine? members = some (combine members) := by
  have hpart : ∀ kind : CombineMember → Bool,
      partition? (members.filter kind) = some (partition (members.filter kind)) := fun kind =>
    partition?_eq fun m hm => hshaped m (List.mem_of_mem_filter hm)
  rw [combine?, combine, hpart, hpart]
  cases partition (members.filter fun m => m.plan.layout.bucketed) with
  | error f => rfl
  | ok bucketed =>
      cases partition (members.filter fun m => !m.plan.layout.bucketed) <;> rfl

/-- Members of one kind fail to be combined if and only if two of them have different key headers. -/
theorem partition_eq_error_iff {f : Failure} :
    partition members = .error f ↔
      f = .differentKeys ∧ ∃ m ∈ members, ∃ n ∈ members, ¬ m.HasKeys n.keyHeaders := by
  cases members with
  | nil => simp [partition]
  | cons first rest =>
      rw [partition_cons]
      by_cases hkeys : ∀ m ∈ first :: rest, m.HasKeys first.keyHeaders
      · rw [if_pos hkeys]
        have hsame : ∀ m ∈ first :: rest, ∀ n ∈ first :: rest, m.HasKeys n.keyHeaders :=
          fun m hm n hn header => (hkeys m hm header).trans (hkeys n hn header).symm
        refine iff_of_false (by simp) ?_
        rintro ⟨-, m, hm, n, hn, hdiffer⟩
        exact hdiffer (hsame m hm n hn)
      · rw [if_neg hkeys, Except.error.injEq, eq_comm]
        refine ⟨fun h => ⟨h, ?_⟩, And.left⟩
        obtain ⟨m, hm, hdiffer⟩ := not_forall₂.mp hkeys
        exact ⟨m, hm, first, by simp, hdiffer⟩

/-- Members fail to be combined if and only if two of one kind have different key headers. -/
theorem combine_eq_error_iff {f : Failure} :
    combine members = .error f ↔ f = .differentKeys ∧ ∃ bucketed, ∃ m ∈ part bucketed members,
      ∃ n ∈ part bucketed members, ¬ m.HasKeys n.keyHeaders := by
  have hbucketed : members.filter (fun m => m.plan.layout.bucketed) = part true members := by
    simp [part]
  have hflat : members.filter (fun m => !m.plan.layout.bucketed) = part false members := by
    simp [part]
  rw [combine, hbucketed, hflat]
  constructor
  · intro h
    rcases bind_eq_error_iff.mp h with h | ⟨_, -, h⟩
    · obtain ⟨hf, hdiffer⟩ := partition_eq_error_iff.mp h
      exact ⟨hf, true, hdiffer⟩
    · rcases bind_eq_error_iff.mp h with h | ⟨_, -, hnever⟩
      · obtain ⟨hf, hdiffer⟩ := partition_eq_error_iff.mp h
        exact ⟨hf, false, hdiffer⟩
      · cases hnever
  · rintro ⟨rfl, bucketed, hdiffer⟩
    cases bucketed with
    | true => rw [partition_eq_error_iff.mpr ⟨rfl, hdiffer⟩]; rfl
    | false =>
        rw [partition_eq_error_iff.mpr ⟨rfl, hdiffer⟩]
        cases hfirst : partition (part true members) with
        | ok timed => rfl
        | error f => rw [(partition_eq_error_iff.mp hfirst).1]; rfl

end Combine

end FederatedMetrics
