import FederatedMetrics.Ordered
import Mathlib.Data.List.Nodup
import Mathlib.Data.List.Perm.Subperm
import Mathlib.Data.List.Sort

/-!
# Ascending lists as sets and maps

`Ordered.ofList` is determined by the members of a list. `Ordered.alter` changes what is found under
one key and leaves all other keys alone, so the order of changes under different keys does not matter;
the keys stay strictly ascending.
-/

namespace FederatedMetrics.Ordered

variable {α β : Type} [LinearOrder α] [DecidableLT α]

theorem mem_insert (x a : α) (items : List α) : x ∈ insert a items ↔ x = a ∨ x ∈ items := by
  induction items with
  | nil => simp
  | cons b rest ih =>
      simp only [insert]
      by_cases hab : a < b
      · simp [hab]
      · by_cases hba : b < a
        · simp only [if_neg hab, if_pos hba, List.mem_cons, ih]
          exact or_left_comm
        · have heq : a = b := le_antisymm (not_lt.mp hba) (not_lt.mp hab)
          simp [heq]

/-- Insertion keeps a list strictly ascending. -/
theorem pairwise_insert (a : α) (items : List α) (h : items.Pairwise (· < ·)) :
    (insert a items).Pairwise (· < ·) := by
  induction items with
  | nil => simp
  | cons b rest ih =>
      obtain ⟨hb, hrest⟩ := List.pairwise_cons.mp h
      simp only [insert]
      by_cases hab : a < b
      · rw [if_pos hab]
        apply List.pairwise_cons.mpr
        refine ⟨?_, h⟩
        intro x hx
        rcases List.mem_cons.mp hx with rfl | hx
        · exact hab
        · exact hab.trans (hb x hx)
      · by_cases hba : b < a
        · rw [if_neg hab, if_pos hba]
          apply List.pairwise_cons.mpr
          refine ⟨?_, ih hrest⟩
          intro x hx
          rcases (mem_insert x a rest).mp hx with rfl | hx
          · exact hba
          · exact hb x hx
        · rw [if_neg hab, if_neg hba]
          exact h

private theorem foldl_insert (items found : List α) (h : found.Pairwise (· < ·)) :
    (items.foldl (fun found a => insert a found) found).Pairwise (· < ·) ∧
      ∀ x, x ∈ items.foldl (fun found a => insert a found) found ↔ x ∈ found ∨ x ∈ items := by
  induction items generalizing found with
  | nil => simp [h]
  | cons a rest ih =>
      obtain ⟨hpairwise, hmem⟩ := ih (insert a found) (pairwise_insert a found h)
      refine ⟨hpairwise, ?_⟩
      intro x
      simp only [List.foldl_cons, hmem x, mem_insert, List.mem_cons]
      tauto

@[simp] theorem mem_ofList (x : α) (items : List α) : x ∈ ofList items ↔ x ∈ items := by
  simpa [ofList] using (foldl_insert items [] List.Pairwise.nil).2 x

theorem pairwise_ofList (items : List α) : (ofList items).Pairwise (· < ·) :=
  (foldl_insert items [] List.Pairwise.nil).1

theorem nodup_ofList (items : List α) : (ofList items).Nodup :=
  (pairwise_ofList items).imp fun h => h.ne

theorem length_ofList_le (items : List α) : (ofList items).length ≤ items.length :=
  (List.Nodup.subperm (nodup_ofList items) fun x hx => (mem_ofList x items).mp hx).length_le

/-- Two lists give the same ascending list if and only if they have the same members. -/
theorem ofList_eq_ofList_iff (items others : List α) :
    ofList items = ofList others ↔ ∀ x, x ∈ items ↔ x ∈ others := by
  constructor
  · intro h x
    rw [← mem_ofList x items, h, mem_ofList]
  · intro h
    apply (pairwise_ofList items).eq_of_mem_iff (pairwise_ofList others)
    intro x
    rw [mem_ofList, mem_ofList, h x]

/-- The ascending list of some of the items is a part of the ascending list of all. -/
theorem ofList_eq_filter {items part : List α} (hsub : ∀ x ∈ part, x ∈ items) :
    ofList part = (ofList items).filter (· ∈ part) := by
  apply (pairwise_ofList part).eq_of_mem_iff ((pairwise_ofList items).filter _)
  intro x
  rw [List.mem_filter, mem_ofList, mem_ofList, decide_eq_true_eq]
  exact ⟨fun hx => ⟨hsub x hx, hx⟩, And.right⟩

/-- Those of the first members that belong to a part are followed by what belongs to it behind them. -/
theorem ofList_eq_append {items part : List α} (hsub : ∀ x ∈ part, x ∈ items) (n : Nat) :
    ofList part = ((ofList items).take n).filter (· ∈ part) ++
      ((ofList items).drop n).filter (· ∈ part) := by
  rw [← List.filter_append, List.take_append_drop, ofList_eq_filter hsub]

/-- What is among the first members of all is among those of every part that it belongs to. -/
theorem mem_take_ofList_of_subset {items part : List α} {x : α} {n : Nat}
    (hsub : ∀ y ∈ part, y ∈ items) (hx : x ∈ part) (h : x ∈ (ofList items).take n) :
    x ∈ (ofList part).take n := by
  have hlength : (((ofList items).take n).filter (· ∈ part)).length ≤ n :=
    (List.length_filter_le _ _).trans (List.length_take_le _ _)
  rw [ofList_eq_append hsub n, List.take_append, List.take_of_length_le hlength]
  exact List.mem_append_left _ (List.mem_filter.mpr ⟨h, decide_eq_true hx⟩)

/-- The first members do not change without others than these. -/
theorem take_ofList_eq_of_subset {items part : List α} {n : Nat} (hsub : ∀ x ∈ part, x ∈ items)
    (hfirst : ∀ x ∈ (ofList items).take n, x ∈ part) :
    (ofList part).take n = (ofList items).take n := by
  have hkept : ((ofList items).take n).filter (· ∈ part) = (ofList items).take n :=
    List.filter_eq_self.mpr fun x hx => decide_eq_true (hfirst x hx)
  rw [ofList_eq_append hsub n, hkept, List.take_append, List.take_take, Nat.min_self,
    List.append_right_eq_self]
  rcases Nat.le_total n (ofList items).length with hlong | hshort
  · rw [List.length_take_of_le hlong, Nat.sub_self, List.take_zero]
  · rw [List.drop_of_length_le hshort, List.filter_nil, List.take_nil]

/-- The first members do not change without one that is not among them. -/
theorem take_ofList_eq {items others : List α} {a : α} {n : Nat} (hsub : ∀ x ∈ others, x ∈ items)
    (hor : ∀ x ∈ items, x ∈ others ∨ x = a)
    (h : a ∈ (ofList items).take n → a ∈ (ofList others).take n) :
    (ofList others).take n = (ofList items).take n := by
  refine take_ofList_eq_of_subset hsub fun x hx => ?_
  rcases hor x ((mem_ofList x items).mp (List.mem_of_mem_take hx)) with hmem | rfl
  · exact hmem
  · exact (mem_ofList x others).mp (List.mem_of_mem_take (h hx))

/-- The first members of many lists together are found among the first members of each. -/
theorem take_ofList_flatMap_take {γ : Type} (n : Nat) (groups : List γ) (items : γ → List α) :
    (ofList (groups.flatMap fun group => (ofList (items group)).take n)).take n =
      (ofList (groups.flatMap items)).take n := by
  apply take_ofList_eq_of_subset
  · intro x hx
    obtain ⟨group, hgroup, hx⟩ := List.mem_flatMap.mp hx
    exact List.mem_flatMap.mpr
      ⟨group, hgroup, (mem_ofList x (items group)).mp (List.mem_of_mem_take hx)⟩
  · intro x hx
    obtain ⟨group, hgroup, hmem⟩ :=
      List.mem_flatMap.mp ((mem_ofList x (groups.flatMap items)).mp (List.mem_of_mem_take hx))
    have hsub : ∀ y ∈ items group, y ∈ groups.flatMap items :=
      fun y hy => List.mem_flatMap.mpr ⟨group, hgroup, hy⟩
    exact List.mem_flatMap.mpr ⟨group, hgroup, mem_take_ofList_of_subset hsub hmem hx⟩

/-- A change is found under its key. -/
@[simp] theorem find?_alter_self (key : α) (change : Option β → β) (entries : List (α × β)) :
    find? key (alter key change entries) = some (change (find? key entries)) := by
  induction entries with
  | nil => simp [find?]
  | cons entry rest ih =>
      simp only [alter, find?]
      by_cases hlt : key < entry.1
      · simp [hlt, find?]
      · by_cases hgt : entry.1 < key
        · simp [hlt, hgt, find?, ih]
        · simp [hlt, hgt, find?]

/-- A change depends only on what is stored under the key. -/
theorem alter_eq_alter_find? (key : α) (change : Option β → β) (entries : List (α × β)) :
    alter key change entries = alter key (fun _ => change (find? key entries)) entries := by
  induction entries with
  | nil => rfl
  | cons entry rest ih =>
      simp only [alter, find?]
      by_cases hlt : key < entry.1
      · simp [hlt]
      · by_cases hgt : entry.1 < key
        · simp [hlt, hgt, ← ih]
        · simp [hlt, hgt]

/-- A change under one key is not seen under another. -/
theorem find?_alter_of_ne {key other : α} (h : other ≠ key) (change : Option β → β)
    (entries : List (α × β)) :
    find? other (alter key change entries) = find? other entries := by
  induction entries with
  | nil =>
      rcases lt_or_gt_of_ne h with hlt | hgt
      · simp [find?, hlt]
      · simp [find?, hgt, not_lt_of_gt hgt]
  | cons entry rest ih =>
      simp only [alter]
      by_cases hlt : key < entry.1
      · rw [if_pos hlt]
        rcases lt_or_gt_of_ne h with hother | hother
        · simp [find?, hother, hother.trans hlt]
        · simp [find?, hother, not_lt_of_gt hother]
      · by_cases hgt : entry.1 < key
        · simp [find?, hlt, hgt, ih]
        · have heq : key = entry.1 := le_antisymm (not_lt.mp hgt) (not_lt.mp hlt)
          simp only [if_neg hlt, if_neg hgt, find?]
          rcases lt_or_gt_of_ne h with hother | hother
          · simp [heq ▸ hother]
          · simp [heq ▸ hother, not_lt_of_gt (heq ▸ hother)]

/-- Changes under different keys may be made in either order. -/
theorem alter_comm {key other : α} (h : key ≠ other) (change replace : Option β → β)
    (entries : List (α × β)) :
    alter key change (alter other replace entries) =
      alter other replace (alter key change entries) := by
  have hne := lt_or_gt_of_ne h
  induction entries with
  | nil => rcases hne with hlt | hlt <;> simp [alter, hlt, not_lt_of_gt hlt]
  | cons entry rest ih =>
      have hkey := lt_trichotomy key entry.1
      have hother := lt_trichotomy other entry.1
      grind [alter]

/-- Two changes under one key are one change. -/
theorem alter_alter (key : α) (change replace : Option β → β) (entries : List (α × β)) :
    alter key change (alter key replace entries) =
      alter key (fun found => change (some (replace found))) entries := by
  induction entries with
  | nil => simp [alter]
  | cons entry rest ih =>
      rcases lt_trichotomy key entry.1 with hkey | hkey | hkey
      · simp [alter, hkey]
      · simp [alter, hkey]
      · simp [alter, hkey, not_lt_of_gt hkey, ih]

theorem mem_of_find?_eq_some {key : α} {value : β} {entries : List (α × β)}
    (h : find? key entries = some value) : (key, value) ∈ entries := by
  induction entries with
  | nil => cases h
  | cons entry rest ih =>
      rw [find?] at h
      split at h
      · cases h
      · split at h
        · exact List.mem_cons_of_mem _ (ih h)
        · rename_i hlt hgt
          obtain rfl : key = entry.1 := le_antisymm (not_lt.mp hgt) (not_lt.mp hlt)
          cases h
          exact List.mem_cons_self

/-- What is stored under different keys is found under its own. -/
theorem find?_eq_some_of_mem {key : α} {value : β} {entries : List (α × β)}
    (hascending : entries.Pairwise fun entry other => entry.1 < other.1)
    (h : (key, value) ∈ entries) : find? key entries = some value := by
  induction entries with
  | nil => cases h
  | cons entry rest ih =>
      obtain ⟨hfirst, hrest⟩ := List.pairwise_cons.mp hascending
      rcases List.mem_cons.mp h with rfl | hmem
      · simp [find?]
      · have hlt := hfirst _ hmem
        simp [find?, hlt, not_lt_of_gt hlt, ih hrest hmem]

/-- What is stored after a change was there before, or is what the change has put there. -/
theorem mem_alter {key : α} {change : Option β → β} {entries : List (α × β)} {entry : α × β}
    (h : entry ∈ alter key change entries) :
    entry = (key, change (find? key entries)) ∨ entry ∈ entries := by
  induction entries with
  | nil => exact .inl (List.mem_singleton.mp h)
  | cons first rest ih =>
      rcases lt_trichotomy key first.1 with hkey | hkey | hkey
      · simpa [alter, find?, hkey] using h
      · simp only [alter, find?, hkey, lt_irrefl, ↓reduceIte, List.mem_cons] at h ⊢
        tauto
      · simp only [alter, find?, hkey, not_lt_of_gt hkey, ↓reduceIte, List.mem_cons] at h ⊢
        rcases h with h | h
        · exact .inr (.inl h)
        · exact (ih h).imp_right .inr

/-- A change keeps the keys strictly ascending. -/
theorem pairwise_keys_alter (key : α) (change : Option β → β) {entries : List (α × β)}
    (h : entries.Pairwise fun entry other => entry.1 < other.1) :
    (alter key change entries).Pairwise fun entry other => entry.1 < other.1 := by
  induction entries with
  | nil => exact List.pairwise_singleton _ _
  | cons first rest ih =>
      obtain ⟨hfirst, hrest⟩ := List.pairwise_cons.mp h
      rcases lt_trichotomy key first.1 with hkey | hkey | hkey
      · rw [alter, if_pos hkey]
        refine .cons ?_ h
        intro entry hentry
        rcases List.mem_cons.mp hentry with rfl | hentry
        · exact hkey
        · exact hkey.trans (hfirst entry hentry)
      · rw [alter, if_neg (by simp [hkey]), if_neg (by simp [hkey])]
        exact .cons hfirst hrest
      · rw [alter, if_neg (not_lt_of_gt hkey), if_pos hkey]
        refine .cons ?_ (ih hrest)
        intro entry hentry
        rcases mem_alter hentry with rfl | hentry
        · exact hkey
        · exact hfirst entry hentry

/-- Changes under other keys are not seen under a key. -/
theorem find?_foldl_alter {γ : Type} {key : γ → α} {change : γ → Option β → β} {items : List γ}
    {a : α} (h : ∀ item ∈ items, a ≠ key item) (entries : List (α × β)) :
    find? a (items.foldl (fun entries item => alter (key item) (change item) entries) entries) =
      find? a entries := by
  induction items generalizing entries with
  | nil => rfl
  | cons item rest ih =>
      obtain ⟨hitem, hrest⟩ := List.forall_mem_cons.mp h
      rw [List.foldl_cons, ih hrest, find?_alter_of_ne hitem]

/-- After changes under different keys, each of them is found under its own. -/
theorem find?_foldl_alter_of_mem {γ : Type} {key : γ → α} {change : γ → Option β → β} {items : List γ}
    (hdistinct : (items.map key).Nodup) {item : γ} (hitem : item ∈ items) (entries : List (α × β)) :
    find? (key item)
        (items.foldl (fun entries item => alter (key item) (change item) entries) entries) =
      some (change item (find? (key item) entries)) := by
  obtain ⟨before, behind, rfl⟩ := List.append_of_mem hitem
  rw [List.map_append, List.map_cons, List.nodup_append, List.nodup_cons] at hdistinct
  obtain ⟨-, ⟨hlast, -⟩, hfirst⟩ := hdistinct
  have hbehind : ∀ other ∈ behind, key item ≠ key other :=
    fun other hother heq => hlast (heq ▸ List.mem_map_of_mem hother)
  have hbefore : ∀ other ∈ before, key item ≠ key other :=
    fun other hother => (hfirst _ (List.mem_map_of_mem hother) _ List.mem_cons_self).symm
  rw [List.foldl_append, List.foldl_cons, find?_foldl_alter hbehind, find?_alter_self,
    find?_foldl_alter hbefore]

/-- After some changes, something is found under a key if it was before or one of the changes was made
there. -/
theorem isSome_find?_foldl_alter {γ : Type} (key : γ → α) (change : γ → Option β → β) (items : List γ)
    (entries : List (α × β)) (a : α) :
    (find? a (items.foldl (fun entries item => alter (key item) (change item) entries)
        entries)).isSome = true ↔
      (find? a entries).isSome = true ∨ ∃ item ∈ items, key item = a := by
  induction items generalizing entries with
  | nil => simp
  | cons item rest ih =>
      rw [List.foldl_cons, ih]
      by_cases hkey : key item = a
      · subst hkey
        simp
      · rw [find?_alter_of_ne (Ne.symm hkey)]
        simp [hkey]

/-- Something is found under the keys that occur, and under no others. -/
theorem mem_keys_iff {entries : List (α × β)}
    (hascending : entries.Pairwise fun entry other => entry.1 < other.1) (key : α) :
    key ∈ entries.map (·.1) ↔ (find? key entries).isSome = true := by
  rw [Option.isSome_iff_exists, List.mem_map]
  constructor
  · rintro ⟨entry, hentry, rfl⟩
    exact ⟨entry.2, find?_eq_some_of_mem hascending hentry⟩
  · rintro ⟨value, hvalue⟩
    exact ⟨(key, value), mem_of_find?_eq_some hvalue, rfl⟩

end FederatedMetrics.Ordered
