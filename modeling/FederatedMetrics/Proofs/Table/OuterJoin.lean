import FederatedMetrics.Proofs.Table.Access

/-!
# The combined view as an outer join

Members whose key headers and keys are distinct are joined on their keys: the combined table has one row
for every key of a member, in ascending order, and every member has its metric cells in it, or zeros if
it has no row with the key. The columns of a member fill up one after the other behind those of the
members before it.
-/

namespace FederatedMetrics

/-- Items that are written over as many others, behind some that stay. -/
theorem overwrite_append {α : Type} (front old items behind : List α)
    (h : old.length = items.length) :
    overwrite front.length items (front ++ (old ++ behind)) = front ++ (items ++ behind) := by
  have hdrop : (front ++ (old ++ behind)).drop (front.length + items.length) = behind := by
    rw [← List.append_assoc]
    exact List.drop_left' (by simp [h])
  rw [overwrite, hdrop, List.take_left' rfl, List.append_assoc]

namespace CombineMember

variable {m : CombineMember} {headers key : List String} {row : List Json}

/-- The key of a row under some headers, wherever the member has these columns. -/
def keyUnder (m : CombineMember) (headers : List String) (row : List Json) : List String :=
  headers.map (m.textUnder row)

/-- The row of a member with a key. -/
def rowWith? (m : CombineMember) (headers key : List String) : Option (List Json) :=
  m.table.rows.find? fun row => m.keyUnder headers row = key

/-- The metric cells of a member under a key: those of its row with that key, and zeros in all of its
columns if it has none. -/
def cellsUnder (m : CombineMember) (headers key : List String) : List Json :=
  match m.rowWith? headers key with
  | some row => row.drop m.width
  | none => List.replicate m.metricCount (.ofFloat 0.0)

theorem mem_of_rowWith? (h : m.rowWith? headers key = some row) :
    row ∈ m.table.rows ∧ m.keyUnder headers row = key :=
  ⟨List.mem_of_find?_eq_some h, by simpa using List.find?_some h⟩

theorem keyUnder_ne_of_rowWith? (h : m.rowWith? headers key = none) (hrow : row ∈ m.table.rows) :
    m.keyUnder headers row ≠ key := by
  simpa using List.find?_eq_none.mp h row hrow

theorem IsShaped.length_cellsUnder (h : m.IsShaped) (headers key : List String) :
    (m.cellsUnder headers key).length = m.metricCount := by
  cases hrow : m.rowWith? headers key with
  | none => simp [cellsUnder, hrow]
  | some row =>
      rw [cellsUnder, hrow]
      exact h.length_drop (mem_of_rowWith? hrow).1

/-- A table that can be joined: rows as wide as its headers, all key columns, and no key header and no
key twice. -/
structure IsKeyed (m : CombineMember) : Prop extends m.IsShaped where
  headers : m.keyHeaders.Nodup
  keys : m.table.DistinctKeys m.width

/-- No two rows of a keyed member are joined under one key. -/
theorem IsKeyed.nodup_keyOf (h : m.IsKeyed) (hkeys : m.HasKeys headers) :
    (m.table.rows.map (m.keyOf headers)).Nodup := by
  apply (nodup_keyOf_iff hkeys fun row _ => uniform_of_nodup h.headers row).mpr
  have hdistinct := h.keys
  rwa [← h.toIsShaped.length_keyHeaders] at hdistinct

end CombineMember

namespace Combine

variable {headers key : List String} {total offset : Nat} {members : List CombineMember}
  {m : CombineMember} {joined : List (List String × List Json)}

/-- The metric cells that are joined under a key, zeros if there are none. -/
def cellsAt (total : Nat) (joined : List (List String × List Json)) (key : List String) : List Json :=
  (Ordered.find? key joined).getD (List.replicate total (.ofFloat 0.0))

/-- A row of a keyed member writes its metric cells over those under its key. -/
theorem cellsAt_addRows_of_mem {rows : List (List Json)}
    (hdistinct : (rows.map (m.keyOf headers)).Nodup) {row : List Json} (hrow : row ∈ rows) :
    cellsAt total (rows.foldl (addRow headers total offset m) joined) (m.keyOf headers row) =
      overwrite offset (m.metricCells row) (cellsAt total joined (m.keyOf headers row)) :=
  congrArg (fun found => Option.getD found (List.replicate total (Json.ofFloat 0.0)))
    (Ordered.find?_foldl_alter_of_mem hdistinct hrow joined)

/-- Rows with other keys leave the cells under a key alone. -/
theorem cellsAt_addRows_of_ne {rows : List (List Json)}
    (hother : ∀ row ∈ rows, key ≠ m.keyOf headers row) :
    cellsAt total (rows.foldl (addRow headers total offset m) joined) key =
      cellsAt total joined key :=
  congrArg (fun found => Option.getD found (List.replicate total (Json.ofFloat 0.0)))
    (Ordered.find?_foldl_alter hother joined)

/-- The rows of a member put its cells under a key in the place of the first zeros. -/
theorem cellsAt_addRows (hm : m.IsKeyed) (hkeys : m.HasKeys headers) {front : List Json} {more : Nat}
    (h : cellsAt total joined key =
      front ++ List.replicate (m.metricCount + more) (.ofFloat 0.0)) :
    cellsAt total (m.table.rows.foldl (addRow headers total front.length m) joined) key =
      front ++ (m.cellsUnder headers key ++ List.replicate more (.ofFloat 0.0)) := by
  rw [List.replicate_add] at h
  cases hrow : m.rowWith? headers key with
  | none =>
      have hother : ∀ row ∈ m.table.rows, key ≠ m.keyOf headers row := by
        intro row hmem heq
        rw [CombineMember.keyOf_eq hkeys] at heq
        exact CombineMember.keyUnder_ne_of_rowWith? hrow hmem heq.symm
      rw [cellsAt_addRows_of_ne hother, h, CombineMember.cellsUnder, hrow]
  | some row =>
      obtain ⟨hmem, hkey⟩ := CombineMember.mem_of_rowWith? hrow
      have hcells : m.metricCells row = m.cellsUnder headers key := by
        rw [CombineMember.cellsUnder, hrow, hm.toIsShaped.metricCells_eq hmem]
      have hlength := hm.toIsShaped.length_cellsUnder headers key
      rw [CombineMember.keyUnder, ← CombineMember.keyOf_eq hkeys] at hkey
      subst hkey
      rw [cellsAt_addRows_of_mem (hm.nodup_keyOf hkeys) hmem, h, hcells]
      exact overwrite_append _ _ _ _ (by simp [hlength])

/-- Members put their cells under a key in the place of the zeros behind what is there already. -/
theorem cellsAt_addMembers (hmembers : ∀ m ∈ members, m.IsKeyed)
    (hkeys : ∀ m ∈ members, m.HasKeys headers) {front : List Json}
    (h : cellsAt total joined key =
      front ++ List.replicate (metricTotal members) (.ofFloat 0.0)) :
    cellsAt total (addMembers headers total front.length members joined) key =
      front ++ members.flatMap fun m => m.cellsUnder headers key := by
  -- The front grows by the cells of one member at a time, and its length is the next offset.
  induction members generalizing front joined with
  | nil => simpa [metricTotal, addMembers] using h
  | cons m rest ih =>
      obtain ⟨hm, hrest⟩ := List.forall_mem_cons.mp hmembers
      obtain ⟨hmkeys, hrestkeys⟩ := List.forall_mem_cons.mp hkeys
      rw [metricTotal_cons] at h
      have hrows := cellsAt_addRows hm hmkeys h
      rw [← List.append_assoc] at hrows
      have hnext := ih hrest hrestkeys hrows
      rw [List.length_append, hm.toIsShaped.length_cellsUnder, List.append_assoc] at hnext
      exact hnext

/-- A key is joined if it was before or a row of a member has it. -/
theorem isSome_find?_addMembers (joined : List (List String × List Json)) :
    (Ordered.find? key (addMembers headers total offset members joined)).isSome = true ↔
      (Ordered.find? key joined).isSome = true ∨
        ∃ m ∈ members, ∃ row ∈ m.table.rows, m.keyOf headers row = key := by
  induction members generalizing offset joined with
  | nil => simp [addMembers]
  | cons m rest ih =>
      have hrows := Ordered.isSome_find?_foldl_alter (m.keyOf headers)
        (fun row values => overwrite offset (m.metricCells row)
          (values.getD (List.replicate total (.ofFloat 0.0)))) m.table.rows joined key
      rw [addMembers, ih]
      simp only [List.mem_cons, exists_eq_or_imp, ← or_assoc]
      exact or_congr_left hrows

/-- A table joins members on their keys: it has the key headers and the metric headers of all members,
and a row for every key of a member in ascending order, with the metric cells of each member. -/
structure IsOuterJoin (headers : List String) (members : List CombineMember) (t : ResultTable) :
    Prop where
  headers_eq : t.headers = headers ++ members.flatMap CombineMember.metricHeaders
  rows_eq : ∃ keys : List (List String), keys.Pairwise (· < ·) ∧
    (∀ key, key ∈ keys ↔ ∃ m ∈ members, ∃ row ∈ m.table.rows, m.keyUnder headers row = key) ∧
    t.rows = keys.map fun key =>
      key.map Json.str ++ members.flatMap fun m => m.cellsUnder headers key

theorem isOuterJoin_combinedTable (hmembers : ∀ m ∈ members, m.IsKeyed)
    (hkeys : ∀ m ∈ members, m.HasKeys headers) :
    IsOuterJoin headers members (combinedTable headers members) := by
  have hjoined := isJoined_members hkeys
  refine ⟨rfl, (addMembers headers (metricTotal members) 0 members []).map (·.1), ?_, ?_, ?_⟩
  · exact List.pairwise_map.mpr hjoined.ascending
  · intro key
    rw [Ordered.mem_keys_iff hjoined.ascending, isSome_find?_addMembers]
    simp only [Ordered.find?_nil, Option.isSome_none, Bool.false_eq_true, false_or]
    refine exists_congr fun m => and_congr_right fun hm => ?_
    simp only [CombineMember.keyOf_eq (hkeys m hm), CombineMember.keyUnder]
  · rw [combinedTable, List.map_map]
    refine List.map_congr_left fun entry hentry => ?_
    have hcells : cellsAt (metricTotal members)
        (addMembers headers (metricTotal members) ([] : List Json).length members []) entry.1 =
          [] ++ members.flatMap fun m => m.cellsUnder headers entry.1 :=
      cellsAt_addMembers hmembers hkeys rfl
    rw [List.length_nil, cellsAt, Ordered.find?_eq_some_of_mem hjoined.ascending hentry,
      Option.getD_some, List.nil_append] at hcells
    rw [Function.comp_apply, hcells]

/-- What combining the members of one kind gives: nothing if there are none, and otherwise the table that
joins them under the key headers of the first. -/
def JoinedAs (members : List CombineMember) (out : List ResultTable) : Prop :=
  match members with
  | [] => out = []
  | first :: _ => ∃ t, out = [t] ∧ IsOuterJoin first.keyHeaders members t

theorem joinedAs_of_partition (hmembers : ∀ m ∈ members, m.IsKeyed) {out : List ResultTable}
    (h : partition members = .ok out) : JoinedAs members out := by
  cases members with
  | nil =>
      cases h
      rfl
  | cons first rest =>
      rw [partition_cons] at h
      split at h
      case isFalse => cases h
      case isTrue hkeys =>
        cases h
        exact ⟨_, rfl, isOuterJoin_combinedTable hmembers hkeys⟩

/-- Two members of one kind have different key headers. -/
def KeysDiffer (members : List CombineMember) : Prop :=
  ∃ bucketed, ∃ m ∈ part bucketed members, ∃ n ∈ part bucketed members, ¬ m.HasKeys n.keyHeaders

/-- The combined view of keyed members is their outer join. It fails if and only if two members of one
kind have different key headers, and otherwise holds the table of the members with time buckets and then
that of the others, each if there are such members. No access reaches outside of a table. -/
theorem combined_view_is_outer_join (members : List CombineMember)
    (hmembers : ∀ m ∈ members, m.IsKeyed) :
    combine? members = some (combine members) ∧
    (∀ f, combine members = .error f ↔
      f = .differentKeys ∧ f.kind = .invalidInput ∧ KeysDiffer members) ∧
    (¬ KeysDiffer members → ∃ timed flat, combine members = .ok (timed ++ flat) ∧
      JoinedAs (part true members) timed ∧ JoinedAs (part false members) flat) := by
  have herror : ∀ f, combine members = .error f ↔
      f = .differentKeys ∧ f.kind = .invalidInput ∧ KeysDiffer members := by
    intro f
    rw [combine_eq_error_iff]
    refine and_congr_right fun hf => ?_
    subst hf
    exact (and_iff_right rfl).symm
  refine ⟨combine?_eq fun m hm => (hmembers m hm).toIsShaped, herror, fun hsame => ?_⟩
  cases hview : combine members with
  | error f => exact absurd ((herror f).mp hview).2.2 hsame
  | ok view =>
      obtain ⟨timed, flat, htimed, hflat, rfl⟩ := combine_eq_ok_iff.mp hview
      have hpart : ∀ bucketed, ∀ m ∈ part bucketed members, m.IsKeyed :=
        fun _ m hm => hmembers m (List.mem_of_mem_filter hm)
      exact ⟨timed, flat, rfl, joinedAs_of_partition (hpart true) htimed,
        joinedAs_of_partition (hpart false) hflat⟩

/-- A member that counts visits by some properties, in time buckets or without. -/
def visitsBy (granularity : Option Granularity) (labels : List String) (rows : List (List Json)) :
    CombineMember :=
  let query : Query := ⟨.events, "visits", ["count"], [], [], 0, 9, granularity, .standard, "", "", "",
    none⟩
  ⟨query, .direct ⟨query, labels, .utc⟩,
    ⟨(KeyLayout.mk granularity.isSome labels).headers ++ ["count"], rows⟩⟩

/-- Two members with the same group-bys in different orders, and one with time buckets. -/
def crossedVisits : List CombineMember :=
  [visitsBy none ["city", "tag"] [[.str "y", .str "q", .int 2], [.str "x", .str "p", .int 1]],
    visitsBy none ["tag", "city"] [[.str "p", .str "x", .int 3], [.str "r", .str "z", .int 4]],
    visitsBy (some .date) [] [[.str "d", .int 5]]]

/-- The members with crossed columns are joined on city and tag, and the one with time buckets comes
first. -/
theorem combined_view_is_outer_join_crossed :
    (∀ m ∈ crossedVisits, m.IsKeyed) ∧
      ∃ timed flat, combine crossedVisits = .ok (timed ++ flat) ∧
        timed = [⟨["datetime", "count"], [[.str "d", .int 5]]⟩] ∧
        flat = [⟨["city", "tag", "count", "count"],
          [[.str "x", .str "p", .int 1, .int 3], [.str "y", .str "q", .int 2, .float 0.0],
            [.str "z", .str "r", .float 0.0, .int 4]]⟩] ∧
        JoinedAs (part true crossedVisits) timed ∧ JoinedAs (part false crossedVisits) flat := by
  have hkeyed : ∀ m ∈ crossedVisits, m.IsKeyed := by
    simp only [crossedVisits, List.forall_mem_cons]
    refine ⟨?_, ?_, ?_, by simp⟩
    all_goals exact ⟨⟨by decide, by decide⟩, by decide, by decide⟩
  have hview : combine crossedVisits = .ok [⟨["datetime", "count"], [[.str "d", .int 5]]⟩,
      ⟨["city", "tag", "count", "count"],
        [[.str "x", .str "p", .int 1, .int 3], [.str "y", .str "q", .int 2, .float 0.0],
          [.str "z", .str "r", .float 0.0, .int 4]]⟩] := by rfl
  obtain ⟨-, herror, hjoin⟩ := combined_view_is_outer_join crossedVisits hkeyed
  have hsame : ¬ KeysDiffer crossedVisits := by
    intro hdiffer
    have hfails := (herror .differentKeys).mpr ⟨rfl, rfl, hdiffer⟩
    rw [hview] at hfails
    cases hfails
  obtain ⟨timed, flat, hok, htimed, hflat⟩ := hjoin hsame
  have htable : ∃ t, timed = [t] ∧ IsOuterJoin [datetimeHeader] (part true crossedVisits) t := htimed
  have hothers : ∃ u, flat = [u] ∧ IsOuterJoin ["city", "tag"] (part false crossedVisits) u := hflat
  obtain ⟨t, rfl, -⟩ := htable
  obtain ⟨u, rfl, -⟩ := hothers
  obtain ⟨rfl, rfl⟩ : _ = t ∧ _ = u := by simpa using Except.ok.inj (hview.symm.trans hok)
  exact ⟨hkeyed, _, _, hok, rfl, rfl, htimed, hflat⟩

end Combine

end FederatedMetrics
