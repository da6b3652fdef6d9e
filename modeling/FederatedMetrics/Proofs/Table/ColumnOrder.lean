import FederatedMetrics.Proofs.Table.Harmonize
import FederatedMetrics.Proofs.Table.Keys

/-!
# One order of columns

Among members that repeat no label, those with the same group-bys are given them in the order of the
first of them, with every cell still under its label. A group is refused for the first of its tables
that does not have the shape it should have.
-/

namespace FederatedMetrics

/-- What a table is refused for: its first row of another width than its headers, else the first global
label that is not among its headers. -/
inductive ResultTable.Offends (globals : List String) (index : Nat) (t : ResultTable) : Failure → Prop
  | row {before behind : List (List Json)} {row : List Json} (hrows : t.rows = before ++ row :: behind)
      (hbefore : ∀ other ∈ before, other.length = t.headers.length)
      (hrow : row.length ≠ t.headers.length) :
      Offends globals index t (.rowWidth index row.length t.headers.length)
  | column (hrect : t.isRectangular = true) {before behind : List String} {label : String}
      (hglobals : globals = before ++ label :: behind) (hbefore : ∀ other ∈ before, other ∈ t.headers)
      (hlabel : label ∉ t.headers) : Offends globals index t (.missingGlobalColumn index label)

namespace KeyLayout

variable {k e : KeyLayout} {earlier layouts : List KeyLayout} {t u : ResultTable}

/-- The headers in the places of the group-bys. -/
def groupHeaders (k : KeyLayout) (t : ResultTable) : List String :=
  (t.headers.drop k.offset).take k.labels.length

/-- A cell of a row stands in a group-by column with a label. -/
def CellUnder (k : KeyLayout) (headers : List String) (row : List Json) (label : String)
    (cell : Json) : Prop :=
  ∃ column, k.offset ≤ column ∧ column < k.width ∧ headers[column]? = some label ∧
    row[column]? = some cell

/-! ## The order of a member -/

/-- Among members that repeat no label, every member is brought into an order of its own labels. -/
theorem targetIn_perm (hk : k.labels.Nodup) (hearlier : ∀ e ∈ earlier, e.labels.Nodup) :
    (k.targetIn earlier).Perm k.labels := by
  have htarget : (k.targetIn earlier).Nodup := by
    rw [targetIn]
    cases hfound : earlier.find? k.sharesLabels with
    | none => exact hk
    | some e => exact hearlier e (List.mem_of_find?_eq_some hfound)
  exact (List.perm_ext_iff_of_nodup htarget hk).mpr (k.mem_targetIn earlier)

theorem movesColumns_of_nodup (hk : k.labels.Nodup) (hearlier : ∀ e ∈ earlier, e.labels.Nodup) :
    MovesColumns k.labels (k.targetIn earlier) := by
  have hperm := targetIn_perm hk hearlier
  refine .inr ⟨hperm.nodup_iff.mpr hk, ?_⟩
  rw [hperm.length_eq, List.take_length]
  exact hperm.symm

theorem fitsIn_of_nodup (hk : k.labels.Nodup) (hearlier : ∀ e ∈ earlier, e.labels.Nodup)
    (hwidth : k.width ≤ t.headers.length) : k.FitsIn earlier t := by
  rw [FitsIn, (targetIn_perm hk hearlier).length_eq]
  exact hwidth

theorem sharesLabels_iff : k.sharesLabels e = true ↔ 2 ≤ k.labels.length ∧ 2 ≤ e.labels.length ∧
    ∀ label, label ∈ e.labels ↔ label ∈ k.labels := by
  simp only [sharesLabels, Bool.and_eq_true, decide_eq_true_eq, and_assoc]
  refine and_congr_right fun _ => and_congr_right fun _ => ?_
  exact ⟨fun h label => ⟨fun hlabel => h.1 hlabel, fun hlabel => h.2 hlabel⟩,
    fun h => ⟨fun label => (h label).mp, fun label => (h label).mpr⟩⟩

theorem sharesLabels_self (h : 2 ≤ k.labels.length) : k.sharesLabels k = true :=
  sharesLabels_iff.mpr ⟨h, h, fun _ => Iff.rfl⟩

/-- Members that share their group-bys share them with the same members. -/
theorem sharesLabels_congr (h : k.sharesLabels e = true) : k.sharesLabels = e.sharesLabels := by
  obtain ⟨hk, he, hsame⟩ := sharesLabels_iff.mp h
  funext other
  rw [Bool.eq_iff_iff, sharesLabels_iff, sharesLabels_iff]
  simp only [hk, he, hsame, true_and]

/-- A member is brought into the order of the first member of all that shares its group-bys, perhaps
itself. -/
theorem exists_first_of_targetIn {i : Nat} (hk : layouts[i]? = some k) (hlong : 2 ≤ k.labels.length) :
    ∃ first, layouts.find? k.sharesLabels = some first ∧ k.targetIn (layouts.take i) = first.labels := by
  have hsplit : layouts = layouts.take i ++ k :: layouts.drop (i + 1) := by
    obtain ⟨hi, rfl⟩ := List.getElem?_eq_some_iff.mp hk
    rw [← List.drop_eq_getElem_cons hi, List.take_append_drop]
  have hself : (k :: layouts.drop (i + 1)).find? k.sharesLabels = some k := by
    rw [List.find?_cons, sharesLabels_self hlong]
  rw [targetIn]
  conv in List.find? _ layouts => rw [hsplit, List.find?_append, hself]
  cases (layouts.take i).find? k.sharesLabels with
  | none => exact ⟨k, rfl, rfl⟩
  | some e => exact ⟨e, rfl, rfl⟩

theorem targetIn_of_unshared (h : ∀ e ∈ earlier, k.sharesLabels e = false) :
    k.targetIn earlier = k.labels := by
  have hnone : earlier.find? k.sharesLabels = none :=
    List.find?_eq_none.mpr fun e he => by simp [h e he]
  rw [targetIn, hnone]
  rfl

/-! ## What a member gets -/

/-- A table that is brought into an order of the labels of its member has them in this order. -/
theorem groupHeaders_of_reorder? (hk : k.Describes t) (hrect : t.isRectangular = true)
    (hperm : (k.targetIn earlier).Perm k.labels)
    (h : t.reorder? k.offset k.labels (k.targetIn earlier) = some u) :
    k.groupHeaders u = k.targetIn earlier := by
  by_cases heq : k.labels = k.targetIn earlier
  · rw [ResultTable.reorder?, if_pos heq] at h
    obtain rfl := Option.some.inj h
    exact hk.labels_eq.trans heq
  · obtain ⟨-, hheaders, -⟩ :=
      ResultTable.columnsFrom_origin heq (k.mem_targetIn earlier) hk.width_le hrect h
    apply List.ext_getElem?
    intro place
    rw [groupHeaders, List.getElem?_take, List.getElem?_drop, hheaders, ← hperm.length_eq]
    split
    · next hplace =>
        -- A place of the order is read from where the label stands among the labels of the member.
        have hmem : (k.targetIn earlier)[place] ∈ k.labels :=
          (k.mem_targetIn earlier _).mp (List.getElem_mem hplace)
        have hlt := List.idxOf_lt_length_of_mem hmem
        rw [ResultTable.origin_add hplace, ← List.getElem?_drop, ← List.getElem?_take_of_lt hlt,
          hk.labels_eq, List.getElem?_eq_getElem hlt, List.getElem_idxOf hlt,
          List.getElem?_eq_getElem hplace]
    · next hplace => exact (List.getElem?_eq_none (Nat.not_lt.mp hplace)).symm

/-- A permutation that leaves the other columns alone keeps the group-by columns together. -/
theorem mem_columns_iff_of_fixed {π : Equiv.Perm Nat}
    (hfixed : ∀ column, column < k.offset ∨ k.width ≤ column → π column = column) (column : Nat) :
    (k.offset ≤ π column ∧ π column < k.width) ↔ k.offset ≤ column ∧ column < k.width := by
  constructor
  · intro hinside
    by_contra houtside
    rw [hfixed column (by omega)] at hinside
    exact houtside hinside
  · intro hinside
    by_contra houtside
    have hsame : π column = column := π.injective (hfixed (π column) (by omega))
    rw [hsame] at houtside
    exact houtside hinside

/-- A rearranged table has the same cells under the labels as before, row by row. -/
theorem cellUnder_iff_of_rearranges (h : k.Rearranges t u) :
    List.Forall₂ (fun row moved => ∀ label cell,
      k.CellUnder u.headers moved label cell ↔ k.CellUnder t.headers row label cell) t.rows u.rows := by
  obtain ⟨π, hfixed, hheaders, hrows⟩ := h
  refine hrows.imp fun row moved hcells label cell => ?_
  simp only [CellUnder, hheaders, hcells]
  constructor
  · rintro ⟨column, hlow, hhigh, hlabel, hcell⟩
    obtain ⟨hlow, hhigh⟩ := (mem_columns_iff_of_fixed hfixed column).mpr ⟨hlow, hhigh⟩
    exact ⟨π column, hlow, hhigh, hlabel, hcell⟩
  · rintro ⟨column, hlow, hhigh, hlabel, hcell⟩
    obtain ⟨column, rfl⟩ := π.surjective column
    obtain ⟨hlow, hhigh⟩ := (mem_columns_iff_of_fixed hfixed column).mp ⟨hlow, hhigh⟩
    exact ⟨column, hlow, hhigh, hlabel, hcell⟩

/-- A described table has a cell under every label, in every row. -/
theorem Describes.exists_cellUnder (hk : k.Describes t) (hrect : t.isRectangular = true)
    {row : List Json} (hrow : row ∈ t.rows) {label : String} (hlabel : label ∈ k.labels) :
    ∃ cell, k.CellUnder t.headers row label cell := by
  have hlt := List.idxOf_lt_length_of_mem hlabel
  have hwidth : k.offset + k.labels.length ≤ t.headers.length := hk.width_le
  have hlength := ResultTable.length_of_isRectangular hrect hrow
  have hheader : t.headers[k.offset + k.labels.idxOf label]? = some label := by
    rw [← List.getElem?_drop, ← List.getElem?_take_of_lt hlt, hk.labels_eq,
      List.getElem?_eq_getElem hlt, List.getElem_idxOf hlt]
  refine ⟨row[k.offset + k.labels.idxOf label], k.offset + k.labels.idxOf label, ?_, ?_, hheader, ?_⟩
  · omega
  · rw [KeyLayout.width]
    omega
  · exact List.getElem?_eq_getElem (by omega)

end KeyLayout

namespace Harmonize

variable {layouts : List KeyLayout} {tables : List ResultTable} {globals : List String}

/-- Tables of members that repeat no label are only rearranged. -/
theorem rearranges_of_nodup (hdescribes : List.Forall₂ KeyLayout.Describes layouts tables)
    (hrect : ∀ t ∈ tables, t.isRectangular = true) (hdistinct : ∀ k ∈ layouts, k.labels.Nodup)
    {out : List ResultTable} (harrange : arrange [] (layouts.zip tables) = some out) :
    List.Forall₂ (fun member u => member.1.Rearranges member.2 u) (layouts.zip tables) out := by
  refine arrange_rearranges hdescribes record_nil ?_ hrect harrange
  intro i k hk
  rw [List.nil_append]
  exact KeyLayout.movesColumns_of_nodup (hdistinct k (List.mem_of_getElem? hk))
    fun e he => hdistinct e (List.mem_of_mem_take he)

/-- Tables of members that repeat no label can be arranged. -/
theorem exists_arrange_of_nodup (hdescribes : List.Forall₂ KeyLayout.Describes layouts tables)
    (hrect : ∀ t ∈ tables, t.isRectangular = true) (hdistinct : ∀ k ∈ layouts, k.labels.Nodup) :
    ∃ out, arrange [] (layouts.zip tables) = some out := by
  have hwidths := hdescribes.imp fun _ _ hdescribe => KeyLayout.Describes.width_le hdescribe
  apply (exists_arrange_iff hwidths hrect record_nil).mpr
  intro i k t hk ht
  rw [List.nil_append]
  have hmem : (k, t) ∈ layouts.zip tables :=
    List.mem_of_getElem? (List.getElem?_zip_eq_some.mpr ⟨hk, ht⟩)
  exact KeyLayout.fitsIn_of_nodup (hdistinct k (List.mem_of_getElem? hk))
    (fun e he => hdistinct e (List.mem_of_mem_take he)) (List.forall₂_zip hwidths hmem)

/-- Every member is brought into the order that the members before it give. -/
theorem reorder?_of_arrange {orders : Orders} {done : List KeyLayout} (hrecord : orders.Record done)
    {out : List ResultTable} (harrange : arrange orders (layouts.zip tables) = some out)
    {i : Nat} {k : KeyLayout} {t : ResultTable} (hk : layouts[i]? = some k) (ht : tables[i]? = some t) :
    ∃ u, out[i]? = some u ∧
      t.reorder? k.offset k.labels (k.targetIn (done ++ layouts.take i)) = some u := by
  induction layouts generalizing tables orders done out i with
  | nil => simp at hk
  | cons e layouts ih =>
      cases tables with
      | nil => simp at ht
      | cons v tables =>
          rw [List.zip_cons_cons] at harrange
          obtain ⟨later, u, us, hlater, hu, hrest, rfl⟩ := arrange_cons_eq_some hrecord harrange
          cases i with
          | zero =>
              obtain rfl : e = k := by simpa using hk
              obtain rfl : v = t := by simpa using ht
              rw [List.take_zero, List.append_nil]
              exact ⟨u, rfl, hu⟩
          | succ i =>
              have hnext := ih hlater hrest (by simpa using hk) (by simpa using ht)
              simpa [List.append_assoc] using hnext

/-! ## What a group is refused for -/

theorem checkShape_eq_error_iff {index : Nat} {t : ResultTable} {f : Failure} :
    t.checkShape index globals = .error f ↔ t.Offends globals index f := by
  rw [ResultTable.checkShape]
  constructor
  · intro h
    split at h
    · next row hrow =>
        cases h
        obtain ⟨hwide, before, behind, hrows, hbefore⟩ := List.find?_eq_some_iff_append.mp hrow
        exact .row hrows (by simpa using hbefore) (by simpa using hwide)
    · next hnone =>
        have hrect : t.isRectangular = true := by
          simpa [ResultTable.isRectangular] using hnone
        split at h
        · next label hlabel =>
            cases h
            obtain ⟨hlacks, before, behind, hglobals, hbefore⟩ :=
              List.find?_eq_some_iff_append.mp hlabel
            exact .column hrect hglobals (by simpa using hbefore) (by simpa using hlacks)
        · cases h
  · intro h
    cases h with
    | row hrows hbefore hrow =>
        have hfound : (t.rows.find? fun row => row.length ≠ t.headers.length) = some _ :=
          List.find?_eq_some_iff_append.mpr ⟨by simpa using hrow, _, _, hrows, by simpa using hbefore⟩
        rw [hfound]
    | column hrect hglobals hbefore hlabel =>
        have hnone : (t.rows.find? fun row => row.length ≠ t.headers.length) = none := by
          simpa [ResultTable.isRectangular] using hrect
        have hfound : (globals.find? fun label => !t.headers.contains label) = some _ :=
          List.find?_eq_some_iff_append.mpr
            ⟨by simpa using hlabel, _, _, hglobals, by simpa using hbefore⟩
        rw [hnone, hfound]

/-- The tables are refused for the first of them that offends. -/
theorem checkShapes_eq_error_iff {index : Nat} {f : Failure} :
    ResultTable.checkShapes globals index tables = .error f ↔
      ∃ before t behind, tables = before ++ t :: behind ∧
        (∀ other ∈ before, other.isRectangular = true ∧ ∀ label ∈ globals, label ∈ other.headers) ∧
        t.Offends globals (index + before.length) f := by
  induction tables generalizing index with
  | nil => simp [ResultTable.checkShapes]
  | cons t rest ih =>
      rw [ResultTable.checkShapes, bind_eq_error_iff, checkShape_eq_error_iff]
      constructor
      · rintro (hoffends | ⟨_, hpasses, hrest⟩)
        · exact ⟨[], t, rest, rfl, by simp, hoffends⟩
        · obtain ⟨before, u, behind, rfl, hbefore, hoffends⟩ := ih.mp hrest
          refine ⟨t :: before, u, behind, rfl, ?_, ?_⟩
          · exact List.forall_mem_cons.mpr ⟨(checkShape_eq_ok_iff globals index t).mp hpasses, hbefore⟩
          · rwa [List.length_cons, Nat.add_comm before.length, ← Nat.add_assoc]
      · rintro ⟨before, u, behind, hsplit, hbefore, hoffends⟩
        cases before with
        | nil =>
            obtain ⟨rfl, rfl⟩ := List.cons.inj hsplit
            exact .inl hoffends
        | cons first before =>
            obtain ⟨rfl, rfl⟩ := List.cons.inj hsplit
            obtain ⟨hfirst, hbefore⟩ := List.forall_mem_cons.mp hbefore
            refine .inr ⟨(), (checkShape_eq_ok_iff globals index t).mpr hfirst,
              ih.mpr ⟨before, u, behind, rfl, hbefore, ?_⟩⟩
            rwa [List.length_cons, Nat.add_comm before.length, ← Nat.add_assoc] at hoffends

/-- A group is refused for the number of its tables, or else for the first of them that offends. -/
theorem finalize_eq_error_iff {f : Failure} : finalize layouts tables globals = .error f ↔
    (layouts.length ≠ tables.length ∧ f = .tableCount layouts.length tables.length) ∨
      layouts.length = tables.length ∧ ∃ before t behind, tables = before ++ t :: behind ∧
        (∀ other ∈ before, other.isRectangular = true ∧ ∀ label ∈ globals, label ∈ other.headers) ∧
        t.Offends globals before.length f := by
  have hshapes : ResultTable.checkShapes globals 0 tables >>= (fun _ =>
      pure (arrange [] (layouts.zip tables))) = .error f ↔
        ResultTable.checkShapes globals 0 tables = .error f := by
    simp [bind_eq_error_iff, pure, Except.pure]
  rw [finalize, guard_eq_error_iff, hshapes, checkShapes_eq_error_iff]
  simp only [ne_eq, not_not, eq_comm, Nat.zero_add]

theorem exists_error_iff : (∃ f, finalize layouts tables globals = .error f) ↔
    layouts.length ≠ tables.length ∨ ∃ t ∈ tables,
      (∃ row ∈ t.rows, row.length ≠ t.headers.length) ∨ ∃ label ∈ globals, label ∉ t.headers := by
  rw [← not_exists_ok_iff]
  simp only [finalize_eq_ok_iff_arrange, exists_and_left, exists_eq', and_true, not_and_or,
    not_forall, ResultTable.isRectangular, List.all_eq_true, decide_eq_true_eq, exists_prop, ne_eq]

/-- What harmonizing makes of the table of a member. Without an earlier member that shares its group-bys it
is left as it is; they come in the order of the first member that does; and in every row there is a cell
under every label, the one that was there before. -/
structure IsHarmonized (layouts : List KeyLayout) (i : Nat) (k : KeyLayout) (t u : ResultTable) : Prop where
  unchanged : (∀ e ∈ layouts.take i, k.sharesLabels e = false) → u = t
  ordered : 2 ≤ k.labels.length →
    ∃ first, layouts.find? k.sharesLabels = some first ∧ k.groupHeaders u = first.labels
  cells : List.Forall₂ (fun row moved =>
    (∀ label ∈ k.labels, ∃ cell, k.CellUnder u.headers moved label cell) ∧
      ∀ label cell, k.CellUnder u.headers moved label cell ↔ k.CellUnder t.headers row label cell)
    t.rows u.rows

/-- Tables are harmonized: each is, and members that share their group-bys have them in one order. -/
structure AreHarmonized (layouts : List KeyLayout) (tables out : List ResultTable) : Prop where
  length_eq : out.length = tables.length
  member {i : Nat} {k : KeyLayout} {t : ResultTable} (hk : layouts[i]? = some k)
    (ht : tables[i]? = some t) : ∃ u, out[i]? = some u ∧ IsHarmonized layouts i k t u
  agree {i j : Nat} {k e : KeyLayout} {u v : ResultTable} (hk : layouts[i]? = some k)
    (he : layouts[j]? = some e) (hshares : k.sharesLabels e = true) (hu : out[i]? = some u)
    (hv : out[j]? = some v) : k.groupHeaders u = e.groupHeaders v

theorem isHarmonized_of_reorder? {i : Nat} {k : KeyLayout} {t u : ResultTable}
    (hk : layouts[i]? = some k) (hdistinct : ∀ e ∈ layouts, e.labels.Nodup) (hdescribes : k.Describes t)
    (hrect : t.isRectangular = true)
    (h : t.reorder? k.offset k.labels (k.targetIn (layouts.take i)) = some u) :
    IsHarmonized layouts i k t u := by
  have hnodup := hdistinct k (List.mem_of_getElem? hk)
  have hearlier : ∀ e ∈ layouts.take i, e.labels.Nodup := fun e he => hdistinct e (List.mem_of_mem_take he)
  refine ⟨fun hunshared => ?_, fun hlong => ?_, ?_⟩
  · rw [KeyLayout.targetIn_of_unshared hunshared, ResultTable.reorder?, if_pos rfl] at h
    exact (Option.some.inj h).symm
  · obtain ⟨first, hfirst, htarget⟩ := KeyLayout.exists_first_of_targetIn hk hlong
    exact ⟨first, hfirst, (KeyLayout.groupHeaders_of_reorder? hdescribes hrect
      (KeyLayout.targetIn_perm hnodup hearlier) h).trans htarget⟩
  · have hrearranges := rearranges_of_reorder? hdescribes hrect
      (KeyLayout.movesColumns_of_nodup hnodup hearlier) (k.mem_targetIn _) h
    have hcells := (List.forall₂_and_left _ _).mpr
      ⟨fun row hrow => hrow, KeyLayout.cellUnder_iff_of_rearranges hrearranges⟩
    refine hcells.imp fun row moved hrow => ⟨fun label hlabel => ?_, hrow.2⟩
    obtain ⟨cell, hcell⟩ := hdescribes.exists_cellUnder hrect hrow.1 hlabel
    exact ⟨cell, (hrow.2 label cell).mpr hcell⟩

theorem areHarmonized_of_arrange (hdescribes : List.Forall₂ KeyLayout.Describes layouts tables)
    (hrect : ∀ t ∈ tables, t.isRectangular = true) (hdistinct : ∀ k ∈ layouts, k.labels.Nodup)
    {out : List ResultTable} (harrange : arrange [] (layouts.zip tables) = some out) :
    AreHarmonized layouts tables out := by
  have hlength : out.length = tables.length := by
    rw [length_of_arrange record_nil harrange, List.length_zip, hdescribes.length_eq, Nat.min_self]
  have hmember : ∀ {i : Nat} {k : KeyLayout} {t : ResultTable}, layouts[i]? = some k →
      tables[i]? = some t → ∃ u, out[i]? = some u ∧ IsHarmonized layouts i k t u := by
    intro i k t hk ht
    obtain ⟨u, hu, hreorder⟩ := reorder?_of_arrange record_nil harrange hk ht
    have hpair : (k, t) ∈ layouts.zip tables :=
      List.mem_of_getElem? (List.getElem?_zip_eq_some.mpr ⟨hk, ht⟩)
    exact ⟨u, hu, isHarmonized_of_reorder? hk hdistinct (List.forall₂_zip hdescribes hpair)
      (hrect t (List.mem_of_getElem? ht)) hreorder⟩
  have hordered : ∀ {i : Nat} {k : KeyLayout} {u : ResultTable}, layouts[i]? = some k →
      out[i]? = some u → 2 ≤ k.labels.length →
      ∃ first, layouts.find? k.sharesLabels = some first ∧ k.groupHeaders u = first.labels := by
    intro i k u hk hu hlong
    obtain ⟨hi, -⟩ := List.getElem?_eq_some_iff.mp hu
    obtain ⟨v, hv, hharmonized⟩ := hmember hk (List.getElem?_eq_getElem (hlength ▸ hi))
    obtain rfl := Option.some.inj (hu.symm.trans hv)
    exact hharmonized.ordered hlong
  refine ⟨hlength, hmember, fun hk he hshares hu hv => ?_⟩
  obtain ⟨hlong, hother, -⟩ := KeyLayout.sharesLabels_iff.mp hshares
  obtain ⟨first, hfirst, hheaders⟩ := hordered hk hu hlong
  obtain ⟨second, hsecond, hothers⟩ := hordered he hv hother
  -- Both look for the first member with the same labels, so they find the same.
  rw [← KeyLayout.sharesLabels_congr hshares, hfirst] at hsecond
  obtain rfl := Option.some.inj hsecond
  rw [hheaders, hothers]

/-- Harmonizing makes the order of columns consistent. It refuses a group if and only if the tables are not
as many as the members, or a table has a row of another width than its headers or lacks a global label, and
then for the first such table. Otherwise, if no member repeats a label, all members with the same group-bys
have them in the order of the first of them, with all cells under their labels. -/
theorem finalize_orders_columns (layouts : List KeyLayout) (tables : List ResultTable)
    (globals : List String) :
    ((∃ f, finalize layouts tables globals = .error f) ↔
      layouts.length ≠ tables.length ∨ ∃ t ∈ tables,
        (∃ row ∈ t.rows, row.length ≠ t.headers.length) ∨ ∃ label ∈ globals, label ∉ t.headers) ∧
    (∀ f, finalize layouts tables globals = .error f ↔
      (layouts.length ≠ tables.length ∧ f = .tableCount layouts.length tables.length) ∨
        layouts.length = tables.length ∧ ∃ before t behind, tables = before ++ t :: behind ∧
          (∀ other ∈ before, other.isRectangular = true ∧ ∀ label ∈ globals, label ∈ other.headers) ∧
          t.Offends globals before.length f) ∧
    (List.Forall₂ KeyLayout.Describes layouts tables → (∀ k ∈ layouts, k.labels.Nodup) →
      ∀ answer, finalize layouts tables globals = .ok answer →
        ∃ out, answer = some out ∧ AreHarmonized layouts tables out) := by
  refine ⟨exists_error_iff, fun f => finalize_eq_error_iff, ?_⟩
  intro hdescribes hdistinct answer hfinalize
  obtain ⟨-, hshapes, rfl⟩ := (finalize_eq_ok_iff_arrange layouts tables answer globals).mp hfinalize
  have hrect : ∀ t ∈ tables, t.isRectangular = true := fun t ht => (hshapes t ht).1
  obtain ⟨out, hout⟩ := exists_arrange_of_nodup hdescribes hrect hdistinct
  exact ⟨out, hout, areHarmonized_of_arrange hdescribes hrect hdistinct hout⟩

/-- Members with the same two group-bys in different orders, one of them in time buckets. -/
def crossedLayouts : List KeyLayout :=
  [⟨true, ["country", "campaign"]⟩, ⟨false, ["country"]⟩, ⟨false, ["campaign", "country"]⟩]

def crossedTables : List ResultTable :=
  [⟨["datetime", "country", "campaign", "count"], [[.str "d", .str "de", .str "a", .int 1]]⟩,
    ⟨["country", "count"], [[.str "fr", .int 2]]⟩,
    ⟨["campaign", "country", "count"], [[.str "b", .str "it", .int 3]]⟩]

/-- The last member gets the order of the first. -/
theorem finalize_orders_columns_crossed :
    List.Forall₂ KeyLayout.Describes crossedLayouts crossedTables ∧
      (∀ k ∈ crossedLayouts, k.labels.Nodup) ∧
      ∃ first second third : ResultTable,
        finalize crossedLayouts crossedTables ["country"] = .ok (some [first, second, third]) ∧
        third = ⟨["country", "campaign", "count"], [[.str "it", .str "b", .int 3]]⟩ ∧
        AreHarmonized crossedLayouts crossedTables [first, second, third] := by
  have hdescribes : List.Forall₂ KeyLayout.Describes crossedLayouts crossedTables :=
    .cons ⟨by decide, rfl⟩ (.cons ⟨by decide, rfl⟩ (.cons ⟨by decide, rfl⟩ .nil))
  have hdistinct : ∀ k ∈ crossedLayouts, k.labels.Nodup := by decide
  obtain ⟨-, -, hok⟩ := finalize_orders_columns crossedLayouts crossedTables ["country"]
  obtain ⟨out, hsome, hharmonized⟩ := hok hdescribes hdistinct _ rfl
  obtain rfl := Option.some.inj hsome
  exact ⟨hdescribes, hdistinct, _, _, _, rfl, rfl, hharmonized⟩

end Harmonize

end FederatedMetrics
