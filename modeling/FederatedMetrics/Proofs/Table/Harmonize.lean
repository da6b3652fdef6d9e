import FederatedMetrics.Plan.Normalize
import FederatedMetrics.Proofs.Failure
import FederatedMetrics.Proofs.Ordered
import FederatedMetrics.Proofs.Table.Columns
import Mathlib.Data.String.Basic

/-!
# What harmonizing does to tables

Harmonizing gives every member the order of the first member with the same labels. It only rearranges
group-by columns if and only if, for every member, that order moves whole columns; an order that
repeats a label duplicates a column, and one that is longer than the labels of the member writes over
its metrics.
-/

namespace FederatedMetrics

open ResultTable

/-- Two members share their group-bys: both have at least two, and the same labels. -/
def KeyLayout.sharesLabels (k e : KeyLayout) : Bool :=
  2 ≤ k.labels.length && 2 ≤ e.labels.length && decide (e.labels ⊆ k.labels ∧ k.labels ⊆ e.labels)

/-- The order into which a member is brought: that of the first earlier member that shares its
group-bys, else its own. -/
def KeyLayout.targetIn (earlier : List KeyLayout) (k : KeyLayout) : List String :=
  ((earlier.find? k.sharesLabels).map (·.labels)).getD k.labels

theorem KeyLayout.mem_targetIn (earlier : List KeyLayout) (k : KeyLayout) (label : String) :
    label ∈ k.targetIn earlier ↔ label ∈ k.labels := by
  cases h : earlier.find? k.sharesLabels with
  | none => simp [targetIn, h]
  | some e =>
      have hshares := List.find?_some h
      simp only [sharesLabels, Bool.and_eq_true, decide_eq_true_eq] at hshares
      simp only [targetIn, h, Option.map_some, Option.getD_some]
      exact ⟨fun hmem => hshares.2.1 hmem, fun hmem => hshares.2.2 hmem⟩

theorem KeyLayout.targetIn_of_short {k : KeyLayout} (h : k.labels.length < 2)
    (earlier : List KeyLayout) : k.targetIn earlier = k.labels := by
  have hnone : earlier.find? k.sharesLabels = none := by
    apply List.find?_eq_none.mpr
    intro e _
    simp only [sharesLabels, Bool.and_eq_true, decide_eq_true_eq]
    omega
  simp [targetIn, hnone]

/-- The order into which a member is brought is no longer than the labels of all members. -/
theorem KeyLayout.length_targetIn_le {k : KeyLayout} {earlier : List KeyLayout} {most : Nat}
    (hk : k.labels.length ≤ most) (hearlier : ∀ e ∈ earlier, e.labels.length ≤ most) :
    (k.targetIn earlier).length ≤ most := by
  rw [targetIn]
  cases hfound : earlier.find? k.sharesLabels with
  | none => exact hk
  | some e => exact hearlier e (List.mem_of_find?_eq_some hfound)

/-- The order into which a member is brought reaches over no more columns than its table has. -/
def KeyLayout.FitsIn (k : KeyLayout) (earlier : List KeyLayout) (t : ResultTable) : Prop :=
  k.offset + (k.targetIn earlier).length ≤ t.headers.length

namespace ResultTable

variable {t u : ResultTable} {offset : Nat} {current target : List String}

/-- A table with all columns that are read and written can be reordered. -/
theorem exists_reorder? (hsub : ∀ label ∈ target, label ∈ current)
    (hread : offset + current.length ≤ t.headers.length)
    (hwrite : offset + target.length ≤ t.headers.length) :
    ∃ u, t.reorder? offset current target = some u := by
  have hplaces := positions_eq offset hsub
  have hcolumns : t.hasColumns (positions offset current target ++
      List.range' offset (positions offset current target).length) = true := by
    refine List.all_eq_true.mpr fun column hcolumn => decide_eq_true ?_
    rcases List.mem_append.mp hcolumn with hplace | hplace
    · rw [hplaces] at hplace
      obtain ⟨label, hlabel, rfl⟩ := List.mem_map.mp hplace
      have := List.idxOf_lt_length_of_mem (hsub label hlabel)
      omega
    · simp only [hplaces, List.length_map, List.mem_range'_1] at hplace
      omega
  by_cases heq : current = target
  · exact ⟨t, by simp [reorder?, heq]⟩
  · exact ⟨_, by simp only [reorder?, if_neg heq, hcolumns, if_true]; simp [hplaces]; rfl⟩

/-- A reordered table has every column from its origin, and it has had all that were written. -/
theorem columnsFrom_origin (hne : current ≠ target)
    (hsame : ∀ label, label ∈ target ↔ label ∈ current)
    (hread : offset + current.length ≤ t.headers.length) (hrect : t.isRectangular = true)
    (h : t.reorder? offset current target = some u) :
    offset + target.length ≤ t.headers.length ∧
      t.ColumnsFrom (origin offset current target) u := by
  have hsub : ∀ label ∈ target, label ∈ current := fun label => (hsame label).mp
  have hplaces := positions_eq offset hsub
  have hlength : (positions offset current target).length = target.length := by simp [hplaces]
  simp only [reorder?, if_neg hne, hlength, ne_eq, not_true_eq_false, if_false] at h
  split at h
  case isFalse => simp at h
  case isTrue hcolumns =>
    obtain rfl := Option.some.inj h
    have hwrite : offset + target.length ≤ t.headers.length := by
      rcases Nat.eq_zero_or_pos target.length with hzero | hpos
      · omega
      · have hlast := List.all_eq_true.mp hcolumns (offset + (target.length - 1))
          (List.mem_append_right _ (List.mem_range'_1.mpr (by omega)))
        have := of_decide_eq_true hlast
        omega
    refine ⟨hwrite, getElem?_permute_positions hsub hread hwrite, ?_⟩
    apply List.forall₂_map_right_iff.mpr
    apply List.forall₂_same.mpr
    intro row hrow
    have hwidth : row.length = t.headers.length := by
      simpa using List.all_eq_true.mp hrect row hrow
    exact getElem?_permute_positions hsub (by omega) (by omega)

/-- A reordered table reads key columns from key columns, and all columns from the table. -/
theorem exists_columnsFrom {k : KeyLayout} (hwidth : k.width ≤ t.headers.length)
    (hrect : t.isRectangular = true) {earlier : List KeyLayout}
    (h : t.reorder? k.offset k.labels (k.targetIn earlier) = some u) :
    ∃ source : Nat → Nat,
      (∀ width, k.width ≤ width → ∀ column < width, source column < width) ∧
        t.ColumnsFrom source u := by
  by_cases heq : k.labels = k.targetIn earlier
  · rw [reorder?, if_pos heq] at h
    obtain rfl := Option.some.inj h
    exact ⟨id, fun _ _ _ hcolumn => hcolumn, fun _ => rfl, List.forall₂_same.mpr fun _ _ _ => rfl⟩
  · obtain ⟨-, hcolumns⟩ := columnsFrom_origin heq (k.mem_targetIn earlier) hwidth hrect h
    refine ⟨_, ?_, hcolumns⟩
    intro width hle column hcolumn
    exact origin_lt (fun label => (k.mem_targetIn earlier label).mp) hle hcolumn

/-- A table as wide as its layout can be reordered if and only if the new order fits in it. -/
theorem exists_reorder?_iff {k : KeyLayout} (hwidth : k.width ≤ t.headers.length)
    (hrect : t.isRectangular = true) (earlier : List KeyLayout) :
    (∃ u, t.reorder? k.offset k.labels (k.targetIn earlier) = some u) ↔ k.FitsIn earlier t := by
  constructor
  · rintro ⟨u, hu⟩
    by_cases heq : k.labels = k.targetIn earlier
    · rw [KeyLayout.FitsIn, ← heq]
      exact hwidth
    · exact (columnsFrom_origin heq (k.mem_targetIn earlier) hwidth hrect hu).1
  · intro hfits
    exact exists_reorder? (fun label => (k.mem_targetIn earlier label).mp) hwidth hfits

end ResultTable

namespace Harmonize

/-- The orders on record are those of the first members with each set of labels, short lists left
out. -/
def Orders.Record (orders : Orders) (done : List KeyLayout) : Prop :=
  ∀ set, orders.lookup set =
    (done.find? fun e => 2 ≤ e.labels.length && decide (Ordered.ofList e.labels = set)).map (·.labels)

theorem record_nil : Orders.Record [] [] := fun _ => rfl

/-- A short list of labels leaves no order on record. -/
theorem Orders.Record.short {orders : Orders} {done : List KeyLayout} (h : orders.Record done)
    {k : KeyLayout} (hk : k.labels.length < 2) : orders.Record (done ++ [k]) := by
  intro set
  have hno : (2 ≤ k.labels.length && decide (Ordered.ofList k.labels = set)) = false := by
    simp [Nat.not_le.mpr hk]
  rw [h set, List.find?_append, List.find?_singleton, hno]
  simp

/-- The look-up of an order finds the target of the member, and puts its own order on record if the
set is new. -/
theorem orderFor_spec {orders : Orders} {done : List KeyLayout} (h : orders.Record done)
    {k : KeyLayout} (hk : 2 ≤ k.labels.length) :
    (orderFor orders k.labels).1 = k.targetIn done ∧
      (orderFor orders k.labels).2.Record (done ++ [k]) := by
  have hshares : (fun e : KeyLayout =>
      2 ≤ e.labels.length && decide (Ordered.ofList e.labels = Ordered.ofList k.labels)) =
        k.sharesLabels := by
    funext e
    have hiff : Ordered.ofList e.labels = Ordered.ofList k.labels ↔
        e.labels ⊆ k.labels ∧ k.labels ⊆ e.labels := by
      rw [Ordered.ofList_eq_ofList_iff]
      exact ⟨fun hmem => ⟨fun x => (hmem x).mp, fun x => (hmem x).mpr⟩,
        fun hsub x => ⟨fun hx => hsub.1 hx, fun hx => hsub.2 hx⟩⟩
    simp only [KeyLayout.sharesLabels, hk, hiff, decide_true, Bool.true_and]
  have hlookup := h (Ordered.ofList k.labels)
  rw [hshares] at hlookup
  cases hfound : done.find? k.sharesLabels with
  | some e =>
      rw [hfound, Option.map_some] at hlookup
      refine ⟨by simp [orderFor, hlookup, KeyLayout.targetIn, hfound], fun set => ?_⟩
      simp only [orderFor, hlookup, h set, List.find?_append]
      by_cases hset : Ordered.ofList k.labels = set
      · subst hset
        rw [hshares, hfound]
        rfl
      · simp [hset]
  | none =>
      rw [hfound, Option.map_none] at hlookup
      refine ⟨by simp [orderFor, hlookup, KeyLayout.targetIn, hfound], fun set => ?_⟩
      simp only [orderFor, hlookup, List.lookup_cons, h set, List.find?_append]
      by_cases hset : Ordered.ofList k.labels = set
      · subst hset
        have hself : k.sharesLabels k = true := by
          rw [← hshares]
          simp [hk]
        rw [hshares, hfound]
        simp [hself]
      · have hne : (set == Ordered.ofList k.labels) = false := by
          simpa using fun heq => hset heq.symm
        simp [hset, hne]

/-- Arranging a member brings it into its target and leaves the orders on record for the others. -/
theorem arrange_cons {orders : Orders} {done : List KeyLayout} (h : orders.Record done)
    (k : KeyLayout) (t : ResultTable) (rest : List (KeyLayout × ResultTable)) :
    ∃ later : Orders, later.Record (done ++ [k]) ∧
      arrange orders ((k, t) :: rest) = do
        let u ← t.reorder? k.offset k.labels (k.targetIn done)
        let us ← arrange later rest
        return u :: us := by
  by_cases hk : k.labels.length < 2
  · refine ⟨orders, h.short hk, ?_⟩
    rw [KeyLayout.targetIn_of_short hk]
    simp only [arrange, if_pos hk, reorder?, if_true]
    rfl
  · obtain ⟨htarget, hlater⟩ := orderFor_spec h (Nat.not_lt.mp hk)
    refine ⟨_, hlater, ?_⟩
    rw [← htarget]
    simp only [arrange, if_neg hk]

theorem arrange_cons_eq_some {orders : Orders} {done : List KeyLayout} (h : orders.Record done)
    {k : KeyLayout} {t : ResultTable} {rest : List (KeyLayout × ResultTable)}
    {out : List ResultTable} (harrange : arrange orders ((k, t) :: rest) = some out) :
    ∃ (later : Orders) (u : ResultTable) (us : List ResultTable), later.Record (done ++ [k]) ∧
      t.reorder? k.offset k.labels (k.targetIn done) = some u ∧ arrange later rest = some us ∧
        out = u :: us := by
  obtain ⟨later, hlater, hcons⟩ := arrange_cons h k t rest
  rw [hcons] at harrange
  obtain ⟨u, hu, harrange⟩ := Option.bind_eq_some_iff.mp harrange
  obtain ⟨us, hus, harrange⟩ := Option.bind_eq_some_iff.mp harrange
  exact ⟨later, u, us, hlater, hu, hus, (Option.some.inj harrange).symm⟩

theorem length_of_arrange {orders : Orders} {done : List KeyLayout} (h : orders.Record done)
    {members : List (KeyLayout × ResultTable)} {out : List ResultTable}
    (harrange : arrange orders members = some out) : out.length = members.length := by
  induction members generalizing orders done out with
  | nil =>
      obtain rfl : [] = out := Option.some.inj harrange
      rfl
  | cons member rest ih =>
      obtain ⟨later, u, us, hlater, -, hrest, rfl⟩ := arrange_cons_eq_some h harrange
      simp [ih hlater hrest]

/-- Every arranged table has been brought into the target of its member. -/
theorem reordered_of_arrange {orders : Orders} {done : List KeyLayout} (h : orders.Record done)
    {members : List (KeyLayout × ResultTable)} {out : List ResultTable}
    (harrange : arrange orders members = some out) :
    List.Forall₂ (fun member u => ∃ earlier, member.2.reorder? member.1.offset member.1.labels
      (member.1.targetIn earlier) = some u) members out := by
  induction members generalizing orders done out with
  | nil =>
      obtain rfl : [] = out := Option.some.inj harrange
      exact .nil
  | cons member rest ih =>
      obtain ⟨later, u, us, hlater, hu, hrest, rfl⟩ := arrange_cons_eq_some h harrange
      exact .cons ⟨done, hu⟩ (ih hlater hrest)

/-- Tables as wide as their layouts can be arranged if and only if every order fits in its table. -/
theorem exists_arrange_iff {layouts : List KeyLayout} {tables : List ResultTable}
    (hwidths : List.Forall₂ (fun k t => k.width ≤ t.headers.length) layouts tables)
    (hrect : ∀ t ∈ tables, t.isRectangular = true) {orders : Orders} {done : List KeyLayout}
    (hrecord : orders.Record done) :
    (∃ out, arrange orders (layouts.zip tables) = some out) ↔
      ∀ (i : Nat) (k : KeyLayout) (t : ResultTable), layouts[i]? = some k → tables[i]? = some t →
        k.FitsIn (done ++ layouts.take i) t := by
  induction hwidths generalizing orders done with
  | nil => simp [arrange]
  | @cons k t layouts tables hwidth _ ih =>
      obtain ⟨ht, hrest⟩ := List.forall_mem_cons.mp hrect
      constructor
      · rintro ⟨out, hout⟩ i e u he hu
        obtain ⟨later, _, us, hlater, hreorder, hus, -⟩ := arrange_cons_eq_some hrecord hout
        cases i with
        | zero =>
            obtain rfl : k = e := by simpa using he
            obtain rfl : t = u := by simpa using hu
            rw [List.take_zero, List.append_nil]
            exact (ResultTable.exists_reorder?_iff hwidth ht done).mp ⟨_, hreorder⟩
        | succ i =>
            have hfits := (ih hrest hlater).mp ⟨us, hus⟩ i e u (by simpa using he) (by simpa using hu)
            simpa [List.append_assoc] using hfits
      · intro hfits
        have hfirst := hfits 0 k t rfl rfl
        rw [List.take_zero, List.append_nil] at hfirst
        obtain ⟨u, hu⟩ := (ResultTable.exists_reorder?_iff hwidth ht done).mpr hfirst
        obtain ⟨later, hlater, hcons⟩ := arrange_cons hrecord k t (layouts.zip tables)
        obtain ⟨us, hus⟩ := (ih hrest hlater).mpr fun i e v he hv => by
          have hnext := hfits (i + 1) e v (by simpa using he) (by simpa using hv)
          simpa [List.append_assoc] using hnext
        refine ⟨u :: us, ?_⟩
        rw [List.zip_cons_cons, hcons, hu, hus]
        rfl

/-- The check of the shape lets exactly the tables pass whose rows are as wide as their headers and that
have all global columns. -/
theorem checkShape_eq_ok_iff (globals : List String) (index : Nat) (t : ResultTable) :
    t.checkShape index globals = .ok () ↔
      t.isRectangular = true ∧ ∀ label ∈ globals, label ∈ t.headers := by
  simp only [ResultTable.checkShape, ResultTable.isRectangular, List.all_eq_true]
  cases hrow : t.rows.find? fun row => decide (row.length ≠ t.headers.length) with
  | some row =>
      have hwide := List.find?_some hrow
      have hmem := List.mem_of_find?_eq_some hrow
      simp only [reduceCtorEq, false_iff, not_and]
      intro hrect
      exact absurd (of_decide_eq_true (hrect row hmem)) (of_decide_eq_true hwide)
  | none =>
      have hrect := List.find?_eq_none.mp hrow
      cases hglobal : globals.find? fun label => !t.headers.contains label with
      | some label =>
          have hlacks := List.find?_some hglobal
          have hmem := List.mem_of_find?_eq_some hglobal
          simp only [reduceCtorEq, false_iff, not_and]
          intro _ hhas
          simp [hhas label hmem] at hlacks
      | none =>
          have hhas := List.find?_eq_none.mp hglobal
          simp only [true_iff]
          exact ⟨fun row hmem => by simpa using hrect row hmem,
            fun label hmem => by simpa using hhas label hmem⟩

theorem checkShapes_eq_ok_iff (globals : List String) (index : Nat) (tables : List ResultTable) :
    ResultTable.checkShapes globals index tables = .ok () ↔
      ∀ t ∈ tables, t.isRectangular = true ∧ ∀ label ∈ globals, label ∈ t.headers := by
  induction tables generalizing index with
  | nil => simp [ResultTable.checkShapes]
  | cons t rest ih =>
      rw [ResultTable.checkShapes, check_bind_eq_ok_iff, checkShape_eq_ok_iff, ih,
        List.forall_mem_cons]

theorem kind_of_checkShapes {globals : List String} {index : Nat} {tables : List ResultTable}
    {f : Failure} (h : ResultTable.checkShapes globals index tables = .error f) :
    f.kind = .executionFailure := by
  induction tables generalizing index with
  | nil => cases h
  | cons t rest ih =>
      rw [ResultTable.checkShapes] at h
      rcases bind_eq_error_iff.mp h with h | ⟨_, -, h⟩
      · rw [ResultTable.checkShape] at h
        repeat' split at h
        all_goals cases h <;> rfl
      · exact ih h

/-- Tables that do not pass the checks are a failure of the execution. -/
theorem kind_of_finalize {layouts : List KeyLayout} {tables : List ResultTable}
    {globals : List String} {f : Failure} (h : finalize layouts tables globals = .error f) :
    f.kind = .executionFailure := by
  rw [finalize] at h
  rcases guard_eq_error_iff.mp h with ⟨-, rfl⟩ | ⟨-, h⟩
  · rfl
  · rcases bind_eq_error_iff.mp h with h | ⟨_, -, hnever⟩
    · exact kind_of_checkShapes h
    · cases hnever

/-- Tables that pass the checks are arranged. -/
theorem finalize_eq_ok_iff_arrange (layouts : List KeyLayout) (tables : List ResultTable)
    (answer : Option (List ResultTable)) (globals : List String) :
    finalize layouts tables globals = .ok answer ↔
      layouts.length = tables.length ∧
        (∀ t ∈ tables, t.isRectangular = true ∧ ∀ label ∈ globals, label ∈ t.headers) ∧
          arrange [] (layouts.zip tables) = answer := by
  rw [← checkShapes_eq_ok_iff globals 0]
  by_cases hcount : layouts.length = tables.length
  · cases hshapes : ResultTable.checkShapes globals 0 tables with
    | error f => simp [finalize, hcount, hshapes, bind, Except.bind]
    | ok => simp [finalize, hcount, hshapes, bind, Except.bind, pure, Except.pure]
  · simp [finalize, hcount, bind, Except.bind]

theorem finalize_eq_ok_iff (layouts : List KeyLayout) (tables out : List ResultTable)
    (globals : List String) :
    finalize layouts tables globals = .ok (some out) ↔
      layouts.length = tables.length ∧
        (∀ t ∈ tables, t.isRectangular = true ∧ ∀ label ∈ globals, label ∈ t.headers) ∧
          arrange [] (layouts.zip tables) = some out :=
  finalize_eq_ok_iff_arrange layouts tables (some out) globals

/-- A table that is brought into an order that moves whole columns is only rearranged. -/
theorem rearranges_of_reorder? {k : KeyLayout} {t u : ResultTable} {target : List String}
    (hk : k.Describes t) (hrect : t.isRectangular = true) (hmoves : MovesColumns k.labels target)
    (hsame : ∀ label, label ∈ target ↔ label ∈ k.labels)
    (hreorder : t.reorder? k.offset k.labels target = some u) : k.Rearranges t u := by
  by_cases heq : k.labels = target
  · rw [reorder?, if_pos heq] at hreorder
    obtain rfl := Option.some.inj hreorder
    exact .refl k t
  · obtain ⟨hnodup, hperm⟩ := hmoves.resolve_left heq
    obtain ⟨-, hcolumns⟩ := columnsFrom_origin heq hsame hk.width_le hrect hreorder
    obtain ⟨π, hfixed, hπ⟩ := exists_perm_eq_origin k.offset hnodup hperm
    exact ⟨π, hfixed, funext hπ ▸ hcolumns⟩

/-- Members whose targets move whole columns are only rearranged. -/
theorem arrange_rearranges {layouts : List KeyLayout} {tables : List ResultTable}
    (hdescribes : List.Forall₂ KeyLayout.Describes layouts tables) {orders : Orders}
    {done : List KeyLayout} (hrecord : orders.Record done)
    (hmoves : ∀ (i : Nat) (k : KeyLayout), layouts[i]? = some k →
      MovesColumns k.labels (k.targetIn (done ++ layouts.take i)))
    (hrect : ∀ t ∈ tables, t.isRectangular = true) {out : List ResultTable}
    (harrange : arrange orders (layouts.zip tables) = some out) :
    List.Forall₂ (fun member u => member.1.Rearranges member.2 u) (layouts.zip tables) out := by
  induction hdescribes generalizing orders done out with
  | nil =>
      obtain rfl : [] = out := Option.some.inj harrange
      exact .nil
  | @cons k t layouts tables hk _ ih =>
      obtain ⟨later, u, us, hlater, hreorder, hrest, rfl⟩ := arrange_cons_eq_some hrecord harrange
      have hmove := hmoves 0 k rfl
      rw [List.take_zero, List.append_nil] at hmove
      have hhead : k.Rearranges t u :=
        rearranges_of_reorder? hk (hrect t (by simp)) hmove (k.mem_targetIn done) hreorder
      refine .cons hhead (ih hlater ?_ (fun t' ht' => hrect t' (by simp [ht'])) hrest)
      intro i e he
      have hnext := hmoves (i + 1) e (by simpa using he)
      simpa [List.append_assoc] using hnext

/-- A table with a layout, the global columns and some more, and one row that numbers its columns. -/
def sample (globals : List String) (more : Nat) (k : KeyLayout) : ResultTable :=
  let headers := List.replicate k.offset datetimeHeader ++ k.labels ++ globals
    ++ List.replicate more ""
  ⟨headers, [(List.range headers.length).map fun (column : Nat) => .int column]⟩

section Sample

variable (globals : List String) (more : Nat) (k : KeyLayout)

theorem length_headers_sample :
    (sample globals more k).headers.length = k.width + globals.length + more := by
  simp [sample, KeyLayout.width, Nat.add_assoc]

theorem describes_sample : k.Describes (sample globals more k) where
  width_le := by rw [length_headers_sample]; omega
  labels_eq := by simp [sample, List.append_assoc]

theorem isRectangular_sample : (sample globals more k).isRectangular = true := by
  simp [sample, ResultTable.isRectangular]

theorem mem_headers_sample : ∀ label ∈ globals, label ∈ (sample globals more k).headers := by
  intro label h
  simp [sample, h]

/-- The numbered row shows from where the columns of a rearranged sample have been read. -/
theorem perm_eq_of_columnsFrom_sample {π : Equiv.Perm Nat} {source : Nat → Nat} {u : ResultTable}
    (hπ : (sample globals more k).ColumnsFrom π u)
    (hsource : (sample globals more k).ColumnsFrom source u) (column : Nat)
    (hcolumn : source column < (sample globals more k).headers.length) :
    π column = source column := by
  obtain ⟨row, hrow⟩ : ∃ row, u.rows = [row] := by
    have hlength := hπ.2.length_eq
    exact List.length_eq_one_iff.mp (by simpa [sample] using hlength.symm)
  have hcells : ∀ read : Nat → Nat, (sample globals more k).ColumnsFrom read u →
      row[column]? = ((List.range (sample globals more k).headers.length).map
        fun (column : Nat) => Json.int column)[read column]? := by
    intro read hread
    have hrows := hread.2
    rw [hrow] at hrows
    cases hrows with
    | cons hcells _ => exact hcells column
  have hsame := (hcells π hπ).symm.trans (hcells source hsource)
  rw [List.getElem?_map, List.getElem?_map, List.getElem?_range hcolumn] at hsame
  obtain ⟨found, hfound, hint⟩ := Option.map_eq_some_iff.mp hsame
  obtain ⟨_, hvalue⟩ := List.getElem?_eq_some_iff.mp hfound
  rw [List.getElem_range] at hvalue
  rw [hvalue]
  exact Int.ofNat_inj.mp (Json.int.inj hint)

end Sample

/-- Samples with enough columns can be arranged. -/
theorem exists_arrange_sample (globals : List String) (more : Nat) {layouts : List KeyLayout}
    (hmore : ∀ k ∈ layouts, k.labels.length ≤ more) :
    ∃ out, arrange [] (layouts.zip (layouts.map (sample globals more))) = some out := by
  have hwidths : List.Forall₂ (fun k t => k.width ≤ t.headers.length) layouts
      (layouts.map (sample globals more)) :=
    List.forall₂_map_right_iff.mpr
      (List.forall₂_same.mpr fun k _ => (describes_sample globals more k).width_le)
  have hrect : ∀ t ∈ layouts.map (sample globals more), t.isRectangular = true := by
    intro t ht
    obtain ⟨k, -, rfl⟩ := List.mem_map.mp ht
    exact isRectangular_sample globals more k
  apply (exists_arrange_iff hwidths hrect record_nil).mpr
  intro i k t hk ht
  obtain rfl : sample globals more k = t := by simpa [hk] using ht
  have htarget : (k.targetIn (layouts.take i)).length ≤ more :=
    k.length_targetIn_le (hmore k (List.mem_of_getElem? hk))
      fun e he => hmore e (List.mem_of_mem_take he)
  rw [List.nil_append, KeyLayout.FitsIn, length_headers_sample, KeyLayout.width]
  omega

/-- Samples with enough columns are only rearranged if all targets move whole columns. -/
theorem movesColumns_of_arrange_sample (globals : List String) (more : Nat)
    {layouts : List KeyLayout} {orders : Orders} {done : List KeyLayout}
    (hrecord : orders.Record done) (hmore : ∀ k ∈ layouts, k.labels.length ≤ more)
    {out : List ResultTable}
    (harrange : arrange orders (layouts.zip (layouts.map (sample globals more))) = some out)
    (hrearranges : List.Forall₂ (fun member u => member.1.Rearranges member.2 u)
      (layouts.zip (layouts.map (sample globals more))) out)
    (i : Nat) (k : KeyLayout) (hk : layouts[i]? = some k) :
    MovesColumns k.labels (k.targetIn (done ++ layouts.take i)) := by
  induction layouts generalizing orders done out i with
  | nil => simp at hk
  | cons e layouts ih =>
      rw [List.map_cons, List.zip_cons_cons] at harrange hrearranges
      obtain ⟨later, u, us, hlater, hreorder, hrest, rfl⟩ := arrange_cons_eq_some hrecord harrange
      obtain ⟨⟨π, hfixed, hπ⟩, hothers⟩ := List.forall₂_cons.mp hrearranges
      cases i with
      | succ i =>
          have hlast := ih hlater (fun k hk => hmore k (by simp [hk])) hrest hothers i
            (by simpa using hk)
          simpa [List.append_assoc] using hlast
      | zero =>
          obtain rfl : e = k := by simpa using hk
          rw [List.take_zero, List.append_nil]
          by_cases heq : e.labels = e.targetIn done
          · exact Or.inl heq
          · have hwidth : e.width ≤ (sample globals more e).headers.length :=
              (describes_sample globals more e).width_le
            obtain ⟨hwrite, hcolumns⟩ := columnsFrom_origin heq (e.mem_targetIn done) hwidth
              (isRectangular_sample globals more e) hreorder
            have hsub : ∀ label ∈ e.targetIn done, label ∈ e.labels :=
              fun label => (e.mem_targetIn done label).mp
            refine Or.inr (movesColumns_of_perm hsub hfixed hwidth hwrite fun column hlt => ?_)
            refine perm_eq_of_columnsFrom_sample globals more e hπ hcolumns column ?_
            exact origin_lt hsub hwidth hlt

/-- Harmonizing only rearranges the group-by columns of every table if and only if every member is
brought into an order that moves whole columns. -/
theorem finalize_rearranges_iff (layouts : List KeyLayout) (globals : List String) :
    (∀ tables out : List ResultTable, List.Forall₂ KeyLayout.Describes layouts tables →
        finalize layouts tables globals = .ok (some out) →
          List.Forall₂ (fun member u => member.1.Rearranges member.2 u) (layouts.zip tables) out) ↔
      ∀ (i : Nat) (k : KeyLayout), layouts[i]? = some k →
        MovesColumns k.labels (k.targetIn (layouts.take i)) := by
  constructor
  · intro h i k hk
    let more := (layouts.map (·.labels)).flatten.length
    have hmore : ∀ k ∈ layouts, k.labels.length ≤ more := fun k hk =>
      (List.sublist_flatten_of_mem (List.mem_map_of_mem hk)).length_le
    obtain ⟨out, hout⟩ := exists_arrange_sample globals more hmore
    have hdescribes : List.Forall₂ KeyLayout.Describes layouts
        (layouts.map (sample globals more)) :=
      List.forall₂_map_right_iff.mpr
        (List.forall₂_same.mpr fun k _ => describes_sample globals more k)
    have hshapes : ∀ t ∈ layouts.map (sample globals more),
        t.isRectangular = true ∧ ∀ label ∈ globals, label ∈ t.headers := by
      intro t ht
      obtain ⟨k, _, rfl⟩ := List.mem_map.mp ht
      exact ⟨isRectangular_sample globals more k, mem_headers_sample globals more k⟩
    have hfinalize := (finalize_eq_ok_iff layouts _ out globals).mpr
      ⟨by simp, hshapes, hout⟩
    simpa using movesColumns_of_arrange_sample globals more record_nil hmore hout
      (h _ out hdescribes hfinalize) i k hk
  · intro hmoves tables out hdescribes hfinalize
    obtain ⟨-, hshapes, harrange⟩ := (finalize_eq_ok_iff layouts tables out globals).mp hfinalize
    exact arrange_rearranges hdescribes record_nil (by simpa using hmoves)
      (fun t ht => (hshapes t ht).1) harrange

/-- A member query for one metric, with group-bys on concrete properties. -/
def plainMember (names : List String) : Query :=
  ⟨.events, "visits", ["count"], [], names.map fun name => ⟨"", name, false, .categorical, ""⟩, 0, 9,
    none, .standard, "", "", "", none⟩

/-- A group whose first member repeats one of the global group-bys. -/
def repeatingGroup : QueryGroup :=
  ⟨"", "", [plainMember ["city"], plainMember []], [], (plainMember ["city", "tag"]).groupBys, ""⟩

/-- The plans of the repeating group have the same labels in lists of different lengths, and
harmonizing writes a group-by over the metric of the second member. -/
theorem finalize_repeatingGroup :
    ∃ (plans : List Plan) (tables out : List ResultTable),
      (((⟨[], 1, fun _ => none⟩ : MappingSource).normalize [] repeatingGroup).run.run .fresh).1 = .ok plans ∧
        List.Forall₂ KeyLayout.Describes (plans.map Plan.layout) tables ∧
        finalize (plans.map Plan.layout) tables ["city", "tag"] = .ok (some out) ∧
        ¬ List.Forall₂ (fun member u => member.1.Rearranges member.2 u)
          ((plans.map Plan.layout).zip tables) out := by
  let first : ResultTable :=
    ⟨["city", "city", "tag", "count"], [[.str "x", .str "x", .str "y", .int 1]]⟩
  let second : ResultTable := ⟨["city", "tag", "count"], [[.str "x", .str "y", .int 1]]⟩
  let lost : ResultTable := ⟨["city", "city", "tag"], [[.str "x", .str "x", .str "y"]]⟩
  refine ⟨_, [first, second], [first, lost], rfl, ?_, rfl, ?_⟩
  · exact .cons ⟨by decide, rfl⟩ (.cons ⟨by decide, rfl⟩ .nil)
  · intro h
    obtain ⟨-, htail⟩ := List.forall₂_cons.mp h
    obtain ⟨⟨π, hfixed, hheaders, -⟩, -⟩ := List.forall₂_cons.mp htail
    have hmetric : lost.headers[2]? = second.headers[2]? := by
      have hstays : π 2 = 2 := hfixed 2 (Or.inr (by decide))
      simpa only [hstays] using hheaders 2
    exact absurd hmetric (by decide)

end Harmonize

end FederatedMetrics
