import FederatedMetrics.Proofs.Failure
import FederatedMetrics.Proofs.Ordered
import FederatedMetrics.Proofs.Table.Keys
import FederatedMetrics.Table.Combine
import Mathlib.Data.String.Basic

/-!
# What the combined view holds

The key of a row is looked up by header, so of several columns with one header only the first is read.
Every row of a member is found again in the combined table, in a row of its own, if and only if nothing
is lost by that: the cells of a row under one header have one text, the keys of rows are distinct, and
no header is repeated more often than in the first table.
-/

namespace FederatedMetrics

/-- What is written is found in its place. -/
theorem take_drop_overwrite {α : Type} {place : Nat} {items cells : List α}
    (h : place ≤ cells.length) :
    ((overwrite place items cells).drop place).take items.length = items := by
  have hplace : (cells.take place).length = place := by simp [h]
  rw [overwrite, List.append_assoc, List.drop_left' hplace, List.take_left' rfl]

/-- Nothing in front is written over. -/
theorem take_overwrite {α : Type} {place : Nat} {items cells : List α} (h : place ≤ cells.length) :
    (overwrite place items cells).take place = cells.take place := by
  rw [overwrite, List.append_assoc, List.take_left' (by simp [h])]

namespace CombineMember

variable {m : CombineMember} {headers : List String} {row other : List Json}

/-- A member has the key headers of a combined table, in any order. -/
def HasKeys (m : CombineMember) (headers : List String) : Prop :=
  ∀ header, header ∈ m.keyHeaders ↔ header ∈ headers

/-- The key texts of a row. -/
def rowKey (m : CombineMember) (row : List Json) : List String :=
  keyTexts m.keyHeaders.length row

/-- The text in the first key column with a header. -/
def textUnder (m : CombineMember) (row : List Json) (header : String) : String :=
  cellText row (m.keyHeaders.idxOf header)

/-- The key cells of a row under one header have one text. -/
def Uniform (m : CombineMember) (row : List Json) : Prop :=
  m.rowKey row = m.keyHeaders.map (m.textUnder row)

theorem length_rowKey (m : CombineMember) (row : List Json) :
    (m.rowKey row).length = m.keyHeaders.length := by
  simp [rowKey, keyTexts]

theorem keyOf_eq (h : m.HasKeys headers) (row : List Json) :
    m.keyOf headers row = headers.map (m.textUnder row) := by
  rw [keyOf, keyPlaces, filterMap_idxOf? fun header => (h header).mpr, List.map_map]
  rfl

theorem textUnder_eq {text : String → String} (h : m.rowKey row = m.keyHeaders.map text)
    {header : String} (hheader : header ∈ m.keyHeaders) : m.textUnder row header = text header := by
  have hlt := List.idxOf_lt_length_of_mem hheader
  have hcell := congrArg (fun texts => texts[m.keyHeaders.idxOf header]?) h
  simpa [rowKey, keyTexts, textUnder, List.getElem?_range hlt, List.getElem?_eq_getElem hlt,
    List.getElem_idxOf hlt] using hcell

/-- A row is uniform if its key texts are given by the headers in any way. -/
theorem uniform_iff : m.Uniform row ↔ ∃ text, m.rowKey row = m.keyHeaders.map text := by
  constructor
  · exact fun h => ⟨_, h⟩
  · rintro ⟨text, htext⟩
    rw [Uniform, htext]
    exact List.map_congr_left fun header hheader => (textUnder_eq htext hheader).symm

theorem uniform_of_nodup (h : m.keyHeaders.Nodup) (row : List Json) : m.Uniform row := by
  apply List.ext_getElem (by simp [length_rowKey])
  intro column hcolumn _
  have hlt : column < m.keyHeaders.length := by simpa [length_rowKey] using hcolumn
  simp [rowKey, keyTexts, textUnder, h.idxOf_getElem column hlt]

/-- Uniform rows are joined with each other only if they have the same key texts. -/
theorem keyOf_eq_keyOf_iff (hkeys : m.HasKeys headers) (hrow : m.Uniform row)
    (hother : m.Uniform other) :
    m.keyOf headers row = m.keyOf headers other ↔ m.rowKey row = m.rowKey other := by
  rw [keyOf_eq hkeys, keyOf_eq hkeys, hrow, hother, List.map_inj_left, List.map_inj_left]
  exact ⟨fun h header hheader => h header ((hkeys header).mp hheader),
    fun h header hheader => h header ((hkeys header).mpr hheader)⟩

/-- Uniform rows are joined under different keys if and only if they have different key texts. -/
theorem nodup_keyOf_iff (hkeys : m.HasKeys headers) {rows : List (List Json)}
    (huniform : ∀ row ∈ rows, m.Uniform row) :
    (rows.map (m.keyOf headers)).Nodup ↔ (rows.map m.rowKey).Nodup := by
  simp only [List.Nodup, List.pairwise_map]
  exact List.Pairwise.iff_of_mem fun hrow hother =>
    not_congr (keyOf_eq_keyOf_iff hkeys (huniform _ hrow) (huniform _ hother))

/-- A row of a combined table with some key headers holds a row of a member: every key text is there
under its header, as often as the header occurs, and the metric cells stand from a metric column on. -/
structure HeldBy (m : CombineMember) (headers : List String) (offset : Nat)
    (row combined : List Json) : Prop where
  keys : (m.keyHeaders.zip (m.rowKey row)).Subperm (headers.zip (keyTexts headers.length combined))
  metrics : (combined.drop (headers.length + offset)).take m.metricCount = row.drop m.width

/-- If the key texts of a combined row are given by the headers, then those of a row that it holds are
given in the same way. -/
theorem HeldBy.rowKey_eq {offset : Nat} {combined : List Json} {text : String → String}
    (h : m.HeldBy headers offset row combined)
    (hcombined : keyTexts headers.length combined = headers.map text) :
    m.rowKey row = m.keyHeaders.map text := by
  have hpairs : ∀ pair ∈ m.keyHeaders.zip (m.rowKey row), pair.2 = text pair.1 := by
    intro pair hpair
    have hmem := h.keys.subset hpair
    rw [hcombined, ← List.map_prod_left_eq_zip] at hmem
    obtain ⟨header, -, rfl⟩ := List.mem_map.mp hmem
    rfl
  have hlength := m.length_rowKey row
  calc m.rowKey row
      = (m.keyHeaders.zip (m.rowKey row)).map (·.2) :=
        (List.map_snd_zip (Nat.le_of_eq hlength)).symm
    _ = (m.keyHeaders.zip (m.rowKey row)).map fun pair => text pair.1 := List.map_congr_left hpairs
    _ = ((m.keyHeaders.zip (m.rowKey row)).map (·.1)).map text := List.map_map.symm
    _ = m.keyHeaders.map text := by rw [List.map_fst_zip (Nat.le_of_eq hlength.symm)]

/-- A row is uniform if a combined row holds it, and it has been joined under the key of that one. -/
theorem HeldBy.uniform_keyOf_eq {offset : Nat} {combined : List Json} (hkeys : m.HasKeys headers)
    (h : m.HeldBy headers offset row combined)
    (hcombined : ∃ text, keyTexts headers.length combined = headers.map text) :
    m.Uniform row ∧ m.keyOf headers row = keyTexts headers.length combined := by
  obtain ⟨text, htext⟩ := hcombined
  have hrow := h.rowKey_eq htext
  refine ⟨uniform_iff.mpr ⟨text, hrow⟩, ?_⟩
  rw [CombineMember.keyOf_eq hkeys, htext]
  exact List.map_congr_left fun header hheader => textUnder_eq hrow ((hkeys header).mpr hheader)

/-- A combined row can only hold rows if it has all their headers. -/
theorem HeldBy.repeated {offset : Nat} {combined : List Json}
    (h : m.HeldBy headers offset row combined) : m.keyHeaders.Subperm headers := by
  obtain ⟨pairs, hperm, hsub⟩ := h.keys
  have hfst : (m.keyHeaders.zip (m.rowKey row)).map (·.1) = m.keyHeaders :=
    List.map_fst_zip (Nat.le_of_eq (m.length_rowKey row).symm)
  refine ⟨pairs.map (·.1), hfst ▸ hperm.map _, ?_⟩
  have hzip : (headers.zip (keyTexts headers.length combined)).map (·.1) = headers :=
    List.map_fst_zip (by simp [keyTexts])
  exact hzip ▸ hsub.map _

/-- A combined table holds every row of a member in a row of its own. -/
def KeptIn (m : CombineMember) (headers : List String) (offset : Nat) (u : ResultTable) : Prop :=
  ∃ kept, List.Subperm kept u.rows ∧ List.Forall₂ (m.HeldBy headers offset) m.table.rows kept

/-- The rows of a member can be told apart by header: the key cells of a row under one header have one
text, no two rows have the same key texts, and no header is repeated more often than in the combined
table. -/
structure Separates (m : CombineMember) (headers : List String) : Prop where
  uniform : ∀ row ∈ m.table.rows, m.Uniform row
  distinct : m.table.DistinctKeys m.keyHeaders.length
  repeated : m.table.rows ≠ [] → m.keyHeaders.Subperm headers

/-- A member without repeated key headers separates its rows if they have distinct keys. -/
theorem separates_of_nodup (hkeys : m.HasKeys headers) (hheaders : m.keyHeaders.Nodup)
    (hrows : m.table.DistinctKeys m.keyHeaders.length) : m.Separates headers where
  uniform row _ := uniform_of_nodup hheaders row
  distinct := hrows
  repeated _ := hheaders.subperm fun header => (hkeys header).mp

/-- The metric cells of a row. -/
def metricCells (m : CombineMember) (row : List Json) : List Json :=
  (row.drop m.width).take m.metricCount

theorem length_metricCells_le (m : CombineMember) (row : List Json) :
    (m.metricCells row).length ≤ m.metricCount :=
  List.length_take_le _ _

theorem length_metricHeaders (m : CombineMember) : m.metricHeaders.length = m.metricCount := by
  simp [metricHeaders]

/-- A member with a rectangular table that has the key columns of the plan. -/
structure IsShaped (m : CombineMember) : Prop where
  width_le : m.width ≤ m.table.headers.length
  rectangular : m.table.isRectangular = true

theorem IsShaped.length_keyHeaders (h : m.IsShaped) : m.keyHeaders.length = m.width := by
  rw [keyHeaders, List.length_take, Nat.min_eq_left h.width_le]

theorem IsShaped.length_drop (h : m.IsShaped) (hrow : row ∈ m.table.rows) :
    (row.drop m.width).length = m.metricCount := by
  rw [List.length_drop, ResultTable.length_of_isRectangular h.rectangular hrow, metricCount]

theorem IsShaped.metricCells_eq (h : m.IsShaped) (hrow : row ∈ m.table.rows) :
    m.metricCells row = row.drop m.width := by
  rw [metricCells, ← h.length_drop hrow, List.take_length]

end CombineMember

namespace Combine

variable {headers : List String} {total offset : Nat} {members : List CombineMember}
  {m : CombineMember} {joined : List (List String × List Json)}

/-- The number of metric columns of members. -/
def metricTotal (members : List CombineMember) : Nat :=
  (members.flatMap CombineMember.metricHeaders).length

theorem metricTotal_cons (m : CombineMember) (rest : List CombineMember) :
    metricTotal (m :: rest) = m.metricCount + metricTotal rest := by
  rw [metricTotal, List.flatMap_cons, List.length_append, m.length_metricHeaders, metricTotal]

theorem metricTotal_append (before behind : List CombineMember) :
    metricTotal (before ++ behind) = metricTotal before + metricTotal behind := by
  rw [metricTotal, List.flatMap_append, List.length_append, metricTotal, metricTotal]

/-- What the joined rows are like: their keys ascend strictly and give every header one text, and they
have all metric columns. -/
structure IsJoined (headers : List String) (total : Nat) (joined : List (List String × List Json)) :
    Prop where
  ascending : joined.Pairwise fun entry other => entry.1 < other.1
  uniform : ∀ entry ∈ joined, ∃ text, entry.1 = headers.map text
  sized : ∀ entry ∈ joined, entry.2.length = total

theorem isJoined_nil : IsJoined headers total [] := ⟨.nil, by simp, by simp⟩

/-- The metric cells that are joined under a key, if there are any, are as many as the columns. -/
theorem IsJoined.length_getD (h : IsJoined headers total joined) (key : List String) :
    ((Ordered.find? key joined).getD (List.replicate total (.ofFloat 0.0))).length = total := by
  cases hfound : Ordered.find? key joined with
  | none => simp
  | some values => exact h.sized _ (Ordered.mem_of_find?_eq_some hfound)

/-- Joining a row keeps the shape of the joined rows. -/
theorem IsJoined.addRow (h : IsJoined headers total joined) (hkeys : m.HasKeys headers)
    (hroom : offset + m.metricCount ≤ total) (row : List Json) :
    IsJoined headers total (addRow headers total offset m joined row) where
  ascending := Ordered.pairwise_keys_alter _ _ h.ascending
  uniform entry hentry := by
    rcases Ordered.mem_alter hentry with rfl | hentry
    · exact ⟨_, CombineMember.keyOf_eq hkeys row⟩
    · exact h.uniform entry hentry
  sized entry hentry := by
    rcases Ordered.mem_alter hentry with rfl | hentry
    · have hlength := h.length_getD (m.keyOf headers row)
      have hcells := m.length_metricCells_le row
      exact (length_overwrite _ (m.metricCells row) _ (by omega)).trans hlength
    · exact h.sized entry hentry

theorem IsJoined.addRows (h : IsJoined headers total joined) (hkeys : m.HasKeys headers)
    (hroom : offset + m.metricCount ≤ total) (rows : List (List Json)) :
    IsJoined headers total (rows.foldl (Combine.addRow headers total offset m) joined) := by
  induction rows generalizing joined with
  | nil => exact h
  | cons row rest ih => exact ih (h.addRow hkeys hroom row)

theorem IsJoined.addMembers (h : IsJoined headers total joined)
    (hkeys : ∀ m ∈ members, m.HasKeys headers) (hroom : offset + metricTotal members ≤ total) :
    IsJoined headers total (addMembers headers total offset members joined) := by
  induction members generalizing offset joined with
  | nil => exact h
  | cons m rest ih =>
      obtain ⟨hm, hrest⟩ := List.forall_mem_cons.mp hkeys
      rw [metricTotal_cons] at hroom
      exact ih (h.addRows hm (by omega) _) hrest (by omega)

/-- The joined rows have some cells from a metric column on under a key. -/
def HasCells (total : Nat) (joined : List (List String × List Json)) (key : List String)
    (place : Nat) (cells : List Json) : Prop :=
  ∃ values, Ordered.find? key joined = some values ∧ values.length = total ∧
    (values.drop place).take cells.length = cells

/-- A row brings its metric cells. -/
theorem IsJoined.hasCells_addRow (h : IsJoined headers total joined)
    (hroom : offset + m.metricCount ≤ total) (row : List Json) :
    HasCells total (Combine.addRow headers total offset m joined row) (m.keyOf headers row) offset
      (m.metricCells row) := by
  have hlength := h.length_getD (m.keyOf headers row)
  have hcells := m.length_metricCells_le row
  refine ⟨_, Ordered.find?_alter_self _ _ _, ?_, ?_⟩
  · exact (length_overwrite _ (m.metricCells row) _ (by omega)).trans hlength
  · exact take_drop_overwrite (by omega)

/-- Rows of later members leave the cells of earlier ones alone. -/
theorem HasCells.addRow {key : List String} {place : Nat} {cells : List Json}
    (h : HasCells total joined key place cells) (hplace : place + cells.length ≤ offset)
    (hroom : offset + m.metricCount ≤ total) (row : List Json) :
    HasCells total (Combine.addRow headers total offset m joined row) key place cells := by
  obtain ⟨values, hfound, hlength, hvalues⟩ := h
  by_cases hkey : key = m.keyOf headers row
  · subst hkey
    have hcells := m.length_metricCells_le row
    refine ⟨overwrite offset (m.metricCells row) values, ?_, ?_, ?_⟩
    · rw [Combine.addRow, Ordered.find?_alter_self, hfound]
      rfl
    · exact (length_overwrite _ _ _ (by omega)).trans hlength
    · have hfront : ∀ items : List Json, (items.drop place).take cells.length =
          (((items.take offset).drop place).take cells.length) := by
        intro items
        rw [List.drop_take, List.take_take, Nat.min_eq_left (by omega)]
      rw [hfront, take_overwrite (by omega), ← hfront, hvalues]
  · exact ⟨values, (Ordered.find?_alter_of_ne hkey _ _).trans hfound, hlength, hvalues⟩

theorem HasCells.addRows {key : List String} {place : Nat} {cells : List Json}
    (h : HasCells total joined key place cells) (hplace : place + cells.length ≤ offset)
    (hroom : offset + m.metricCount ≤ total) (rows : List (List Json)) :
    HasCells total (rows.foldl (Combine.addRow headers total offset m) joined) key place cells := by
  induction rows generalizing joined with
  | nil => exact h
  | cons row rest ih => exact ih (h.addRow hplace hroom row)

theorem HasCells.addMembers {key : List String} {place : Nat} {cells : List Json}
    (h : HasCells total joined key place cells) (hplace : place + cells.length ≤ offset)
    (hroom : offset + metricTotal members ≤ total) :
    HasCells total (addMembers headers total offset members joined) key place cells := by
  induction members generalizing offset joined with
  | nil => exact h
  | cons m rest ih =>
      rw [metricTotal_cons] at hroom
      exact ih (h.addRows hplace (by omega) _) (by omega) (by omega)

/-- Of rows with different keys, each one leaves its metric cells. -/
theorem IsJoined.hasCells_addRows (h : IsJoined headers total joined) (hkeys : m.HasKeys headers)
    (hroom : offset + m.metricCount ≤ total) {rows : List (List Json)}
    (hdistinct : (rows.map (m.keyOf headers)).Nodup) {row : List Json} (hrow : row ∈ rows) :
    HasCells total (rows.foldl (Combine.addRow headers total offset m) joined) (m.keyOf headers row)
      offset (m.metricCells row) := by
  obtain ⟨before, behind, rfl⟩ := List.append_of_mem hrow
  rw [List.map_append, List.map_cons, List.nodup_append, List.nodup_cons] at hdistinct
  have hbehind : ∀ other ∈ behind, m.keyOf headers row ≠ m.keyOf headers other :=
    fun other hother heq => hdistinct.2.1.1 (heq ▸ List.mem_map_of_mem hother)
  obtain ⟨values, hfound, hvalues⟩ := (h.addRows hkeys hroom before).hasCells_addRow hroom row
  refine ⟨values, ?_, hvalues⟩
  rw [List.foldl_append, List.foldl_cons]
  exact (Ordered.find?_foldl_alter hbehind _).trans hfound

theorem addMembers_append (before behind : List CombineMember) :
    addMembers headers total offset (before ++ behind) joined =
      addMembers headers total (offset + metricTotal before) behind
        (addMembers headers total offset before joined) := by
  induction before generalizing offset joined with
  | nil => rfl
  | cons m rest ih => rw [List.cons_append, addMembers, ih, metricTotal_cons, Nat.add_assoc]; rfl

/-- Every row of a member leaves its metric cells in the columns of the member, if the rows of the
member are joined under different keys. -/
theorem hasCells_of_mem {before behind : List CombineMember}
    (hkeys : ∀ n ∈ before ++ m :: behind, n.HasKeys headers)
    (hdistinct : (m.table.rows.map (m.keyOf headers)).Nodup) {row : List Json}
    (hrow : row ∈ m.table.rows) :
    HasCells (metricTotal (before ++ m :: behind))
      (addMembers headers (metricTotal (before ++ m :: behind)) 0 (before ++ m :: behind) [])
      (m.keyOf headers row) (metricTotal before) (m.metricCells row) := by
  generalize htotal : metricTotal (before ++ m :: behind) = total
  rw [metricTotal_append, metricTotal_cons] at htotal
  rw [addMembers_append, addMembers, Nat.zero_add]
  have hbefore : IsJoined headers total (addMembers headers total 0 before []) :=
    isJoined_nil.addMembers (fun n hn => hkeys n (List.mem_append_left _ hn)) (by omega)
  have hroom : metricTotal before + m.metricCount ≤ total := by omega
  have hcells := hbefore.hasCells_addRows (hkeys m (by simp)) hroom hdistinct hrow
  have hle := m.length_metricCells_le row
  exact hcells.addMembers (by omega) (by omega)

/-- The combined table of members under some key headers. -/
def combinedTable (headers : List String) (members : List CombineMember) : ResultTable :=
  ⟨headers ++ members.flatMap CombineMember.metricHeaders,
    (addMembers headers (metricTotal members) 0 members []).map fun entry =>
      entry.1.map Json.str ++ entry.2⟩

open Classical in
/-- Members are combined if and only if all have the key headers of the first one. -/
theorem partition_cons (first : CombineMember) (rest : List CombineMember) :
    partition (first :: rest) =
      if ∀ m ∈ first :: rest, m.HasKeys first.keyHeaders then
        .ok [combinedTable first.keyHeaders (first :: rest)]
      else .error .differentKeys := by
  have hkeys : (first :: rest).any (fun m => Ordered.ofList m.keyHeaders ≠
      Ordered.ofList first.keyHeaders) = true ↔
      ¬ ∀ m ∈ first :: rest, m.HasKeys first.keyHeaders := by
    simp only [List.any_eq_true, decide_eq_true_eq, ne_eq, Ordered.ofList_eq_ofList_iff,
      CombineMember.HasKeys, not_forall, exists_prop]
  simp only [partition]
  by_cases hsame : ∀ m ∈ first :: rest, m.HasKeys first.keyHeaders
  · rw [if_neg fun hany => hkeys.mp hany hsame, if_pos hsame]
    rfl
  · rw [if_pos (hkeys.mpr hsame), if_neg hsame]

section CombinedTable

/-- The key texts of a row of the combined table are the key under which it has been joined. -/
theorem IsJoined.keyTexts_eq (h : IsJoined headers total joined)
    {entry : List String × List Json} (hentry : entry ∈ joined) :
    keyTexts headers.length (entry.1.map Json.str ++ entry.2) = entry.1 := by
  obtain ⟨text, htext⟩ := h.uniform entry hentry
  have hlength : entry.1.length = headers.length := by simp [htext]
  rw [← hlength, keyTexts_map_str]

theorem isJoined_members (hkeys : ∀ m ∈ members, m.HasKeys headers) :
    IsJoined headers (metricTotal members)
      (addMembers headers (metricTotal members) 0 members []) :=
  isJoined_nil.addMembers hkeys (by omega)

/-- The rows of the combined table have distinct keys. -/
theorem distinctKeys_combinedTable (hkeys : ∀ m ∈ members, m.HasKeys headers) :
    (combinedTable headers members).DistinctKeys headers.length := by
  have hjoined := isJoined_members hkeys
  have hkeyed : (combinedTable headers members).rows.map (keyTexts headers.length) =
      (addMembers headers (metricTotal members) 0 members []).map (·.1) := by
    rw [combinedTable, List.map_map]
    exact List.map_congr_left fun entry hentry => hjoined.keyTexts_eq hentry
  rw [ResultTable.DistinctKeys, hkeyed]
  exact List.pairwise_map.mpr (hjoined.ascending.imp fun hlt => hlt.ne)

/-- Every row of the combined table gives every header one text. -/
theorem exists_text_of_mem (hkeys : ∀ m ∈ members, m.HasKeys headers) {combined : List Json}
    (h : combined ∈ (combinedTable headers members).rows) :
    ∃ text, keyTexts headers.length combined = headers.map text := by
  have hjoined := isJoined_members hkeys
  obtain ⟨entry, hentry, rfl⟩ := List.mem_map.mp h
  rw [hjoined.keyTexts_eq hentry]
  exact hjoined.uniform entry hentry

variable {before behind : List CombineMember}

/-- A row that can be told apart by header is held by the row of the combined table that has been
joined under its key. -/
theorem exists_heldBy (hkeys : ∀ n ∈ before ++ m :: behind, n.HasKeys headers) (hm : m.IsShaped)
    (h : m.Separates headers) {row : List Json} (hrow : row ∈ m.table.rows) :
    ∃ combined ∈ (combinedTable headers (before ++ m :: behind)).rows,
      keyTexts headers.length combined = m.keyOf headers row ∧
        m.HeldBy headers (metricTotal before) row combined := by
  have hmember : m.HasKeys headers := hkeys m (by simp)
  have hjoined := isJoined_members hkeys
  have hdistinct : (m.table.rows.map (m.keyOf headers)).Nodup :=
    (CombineMember.nodup_keyOf_iff hmember h.uniform).mpr h.distinct
  obtain ⟨values, hfound, -, hcells⟩ := hasCells_of_mem hkeys hdistinct hrow
  have hentry := Ordered.mem_of_find?_eq_some hfound
  have hkey := hjoined.keyTexts_eq hentry
  refine ⟨_, List.mem_map_of_mem hentry, hkey, ?_, ?_⟩
  · -- Both rows have the same text under every header.
    rw [hkey, CombineMember.keyOf_eq hmember, h.uniform row hrow, ← List.map_prod_left_eq_zip,
      ← List.map_prod_left_eq_zip]
    obtain ⟨picked, hperm, hsub⟩ := h.repeated (List.ne_nil_of_mem hrow)
    exact ⟨_, hperm.map _, hsub.map _⟩
  · have hlength : ((m.keyOf headers row).map Json.str).length = headers.length := by
      simp [CombineMember.keyOf_eq hmember]
    rw [← List.drop_drop, List.drop_left' hlength, ← hm.metricCells_eq hrow]
    rwa [hm.metricCells_eq hrow, hm.length_drop hrow, ← hm.metricCells_eq hrow] at hcells

/-- The combined table keeps the rows of a member if and only if these can be told apart by header. -/
theorem keptIn_combinedTable_iff (hkeys : ∀ n ∈ before ++ m :: behind, n.HasKeys headers)
    (hm : m.IsShaped) :
    m.KeptIn headers (metricTotal before) (combinedTable headers (before ++ m :: behind)) ↔
      m.Separates headers := by
  have hmember : m.HasKeys headers := hkeys m (by simp)
  have hrows := distinctKeys_combinedTable hkeys
  constructor
  · rintro ⟨kept, hsub, hheld⟩
    have hjoined : List.Forall₂ (fun row combined => m.Uniform row ∧
        m.keyOf headers row = keyTexts headers.length combined) m.table.rows kept := by
      have hheld' := (List.forall₂_and_left kept m.table.rows).mpr
        ⟨fun combined hcombined => exists_text_of_mem hkeys (hsub.subset hcombined), hheld.flip⟩
      exact hheld'.flip.imp fun _ _ h => h.2.uniform_keyOf_eq hmember h.1
    have huniform : ∀ row ∈ m.table.rows, m.Uniform row := fun row hrow =>
      (exists_of_mem_of_forall₂ hjoined.flip hrow).elim fun _ h => h.2.1
    refine ⟨huniform, (CombineMember.nodup_keyOf_iff hmember huniform).mp ?_, ?_⟩
    · obtain ⟨sorted, hperm, hsublist⟩ := hsub
      rw [map_eq_map_of_forall₂ (hjoined.imp fun _ _ h => h.2)]
      exact (hperm.map _).nodup_iff.mp (hrows.sublist (hsublist.map _))
    · intro hne
      obtain ⟨row, hrow⟩ := List.exists_mem_of_ne_nil _ hne
      obtain ⟨combined, -, hholds⟩ := exists_of_mem_of_forall₂ hheld.flip hrow
      exact hholds.repeated
  · intro h
    obtain ⟨kept, hkept⟩ := exists_forall₂_of_forall fun row hrow => exists_heldBy hkeys hm h hrow
    refine ⟨kept, List.Nodup.subperm ?_ ?_, hkept.imp fun _ _ h => h.2.2⟩
    · apply List.Nodup.of_map (keyTexts headers.length)
      rw [← map_eq_map_of_forall₂ (hkept.imp fun _ _ h => h.2.1.symm)]
      exact (CombineMember.nodup_keyOf_iff hmember h.uniform).mpr h.distinct
    · intro combined hcombined
      obtain ⟨row, -, hheld⟩ := exists_of_mem_of_forall₂ hkept hcombined
      exact hheld.1

end CombinedTable

/-- A combined table holds the rows of all its members, those of each one behind the metric columns of
the members before it. -/
def Keeps (members : List CombineMember) (u : ResultTable) : Prop :=
  ∀ first before m behind, members.head? = some first → members = before ++ m :: behind →
    m.KeptIn first.keyHeaders (metricTotal before) u

/-- The rows of all members can be told apart under the key headers of the first one. -/
def Separates (members : List CombineMember) : Prop :=
  ∀ first, members.head? = some first → ∀ m ∈ members, m.Separates first.keyHeaders

/-- What combining some members gives: one table, which keeps all rows if and only if the rows of every
member can be told apart by header. -/
theorem exists_table_of_partition {out : List ResultTable} (h : partition members = .ok out)
    (hne : members ≠ []) (hshaped : ∀ m ∈ members, m.IsShaped) :
    ∃ u, out = [u] ∧ (Keeps members u ↔ Separates members) := by
  obtain ⟨first, rest, rfl⟩ := List.exists_cons_of_ne_nil hne
  rw [partition_cons] at h
  split at h
  case isFalse => cases h
  case isTrue hkeys =>
    cases h
    refine ⟨_, rfl, ?_⟩
    constructor
    · rintro hkeeps head hhead m hm
      obtain rfl : first = head := by simpa using hhead
      obtain ⟨before, behind, hsplit⟩ := List.append_of_mem hm
      have hkept := hkeeps first before m behind rfl hsplit
      rw [hsplit] at hkept hkeys
      exact (keptIn_combinedTable_iff hkeys (hshaped m hm)).mp hkept
    · rintro hseparates head before m behind hhead hsplit
      obtain rfl : first = head := by simpa using hhead
      have hm : m ∈ first :: rest := hsplit ▸ by simp
      have hseparate := hseparates first rfl m hm
      rw [hsplit] at hkeys ⊢
      exact (keptIn_combinedTable_iff hkeys (hshaped m hm)).mpr hseparate

/-- Members that are combined separate their rows if these have distinct keys and no member repeats a
key header. -/
theorem separates_of_partition {out : List ResultTable} (h : partition members = .ok out)
    (hheaders : ∀ m ∈ members, m.keyHeaders.Nodup)
    (hrows : ∀ m ∈ members, m.table.DistinctKeys m.keyHeaders.length) : Separates members := by
  intro first hfirst m hm
  obtain ⟨rest, rfl⟩ := List.head?_eq_some_iff.mp hfirst
  rw [partition_cons] at h
  split at h
  case isFalse => cases h
  case isTrue hkeys =>
    exact CombineMember.separates_of_nodup (hkeys m hm) (hheaders m hm) (hrows m hm)

/-- The members with time buckets, or those without. -/
def part (bucketed : Bool) (members : List CombineMember) : List CombineMember :=
  members.filter fun m => m.plan.layout.bucketed = bucketed

/-- The table of a combined view for the members with time buckets, or for those without. -/
def tableFor (bucketed : Bool) (view : List ResultTable) : Option ResultTable :=
  if bucketed then view.head? else view.getLast?

/-- A combined view holds the rows of all members in the tables for the two kinds. -/
def ViewKeeps (members : List CombineMember) (view : List ResultTable) : Prop :=
  ∀ bucketed, part bucketed members ≠ [] →
    ∃ u, tableFor bucketed view = some u ∧ Keeps (part bucketed members) u

theorem combine_eq_ok_iff {view : List ResultTable} :
    combine members = .ok view ↔ ∃ timed flat, partition (part true members) = .ok timed ∧
      partition (part false members) = .ok flat ∧ view = timed ++ flat := by
  have hflat : members.filter (fun m => !m.plan.layout.bucketed) = part false members := by
    simp [part]
  have htimed : members.filter (fun m => m.plan.layout.bucketed) = part true members := by
    simp [part]
  rw [combine, hflat, htimed, bind_eq_ok_iff]
  simp only [bind_eq_ok_iff, pure, Except.pure, Except.ok.injEq]
  constructor
  · rintro ⟨timed, htimed, flat, hflat, rfl⟩
    exact ⟨timed, flat, htimed, hflat, rfl⟩
  · rintro ⟨timed, flat, htimed, hflat, rfl⟩
    exact ⟨timed, htimed, flat, hflat, rfl⟩

/-- The combined view has a table for the members of a kind if there are any, which keeps all their rows
if and only if they separate them. -/
theorem exists_tableFor {view : List ResultTable} (h : combine members = .ok view)
    (hshaped : ∀ m ∈ members, m.IsShaped) {bucketed : Bool} (hne : part bucketed members ≠ []) :
    ∃ u, tableFor bucketed view = some u ∧
      (Keeps (part bucketed members) u ↔ Separates (part bucketed members)) := by
  obtain ⟨timed, flat, htimed, hflat, rfl⟩ := combine_eq_ok_iff.mp h
  have hpart : ∀ m ∈ part bucketed members, m.IsShaped :=
    fun m hm => hshaped m (List.mem_of_mem_filter hm)
  cases bucketed with
  | true =>
      obtain ⟨u, rfl, hu⟩ := exists_table_of_partition htimed hne hpart
      exact ⟨u, rfl, hu⟩
  | false =>
      obtain ⟨u, rfl, hu⟩ := exists_table_of_partition hflat hne hpart
      exact ⟨u, by simp [tableFor], hu⟩

/-- The combined view keeps all rows if and only if the members of each kind separate theirs. -/
theorem viewKeeps_iff {view : List ResultTable} (h : combine members = .ok view)
    (hshaped : ∀ m ∈ members, m.IsShaped) :
    ViewKeeps members view ↔ ∀ bucketed, Separates (part bucketed members) := by
  constructor
  · intro hkeeps bucketed first hfirst
    have hne : part bucketed members ≠ [] := by
      rintro hnil
      simp [hnil] at hfirst
    obtain ⟨u, hu, hkept⟩ := hkeeps bucketed hne
    obtain ⟨u', hu', hiff⟩ := exists_tableFor h hshaped hne
    obtain rfl : u = u' := Option.some.inj (hu.symm.trans hu')
    exact hiff.mp hkept first hfirst
  · intro hseparates bucketed hne
    obtain ⟨u, hu, hiff⟩ := exists_tableFor h hshaped hne
    exact ⟨u, hu, hiff.mpr (hseparates bucketed)⟩

/-- If members that are combined have distinct keys and no member repeats a key header, then the
members of each kind separate their rows. -/
theorem separates_of_combine {view : List ResultTable} (h : combine members = .ok view)
    (hheaders : ∀ m ∈ members, m.keyHeaders.Nodup)
    (hrows : ∀ m ∈ members, m.table.DistinctKeys m.keyHeaders.length) (bucketed : Bool) :
    Separates (part bucketed members) := by
  obtain ⟨timed, flat, htimed, hflat, -⟩ := combine_eq_ok_iff.mp h
  have hpart : ∃ out, partition (part bucketed members) = .ok out := by
    cases bucketed with
    | true => exact ⟨timed, htimed⟩
    | false => exact ⟨flat, hflat⟩
  obtain ⟨out, hout⟩ := hpart
  exact separates_of_partition hout (fun m hm => hheaders m (List.mem_of_mem_filter hm))
    fun m hm => hrows m (List.mem_of_mem_filter hm)

end Combine

end FederatedMetrics
