import FederatedMetrics.Failure
import Mathlib.Data.List.Forall2

/-!
# Computations that may fail

A computation in several parts succeeds exactly if all its parts do, and otherwise it fails like one
of them.
-/

namespace FederatedMetrics

variable {ε α β : Type}

/-- A computation succeeds after another one if and only if both do. -/
theorem bind_eq_ok_iff {x : Except ε α} {f : α → Except ε β} {b : β} :
    x >>= f = .ok b ↔ ∃ a, x = .ok a ∧ f a = .ok b := by
  cases x <;> simp [bind, Except.bind]

/-- A check comes before the rest. -/
theorem check_bind_eq_ok_iff {x : Except ε Unit} {f : Unit → Except ε β} {b : β} :
    x >>= f = .ok b ↔ x = .ok () ∧ f () = .ok b := by
  cases x <;> simp [bind, Except.bind]

/-- What does not succeed fails. -/
theorem not_exists_ok_iff {x : Except ε α} : (¬ ∃ a, x = .ok a) ↔ ∃ e, x = .error e := by
  cases x <;> simp

/-- A list is processed if and only if every element is. -/
theorem mapM_eq_ok_iff {f : α → Except ε β} {items : List α} {out : List β} :
    items.mapM f = .ok out ↔ List.Forall₂ (fun a b => f a = .ok b) items out := by
  induction items generalizing out with
  | nil => simp [pure, Except.pure, eq_comm]
  | cons a rest ih =>
      rw [List.mapM_cons]
      cases hhead : f a with
      | error e => cases out <;> simp [hhead, bind, Except.bind]
      | ok b =>
          cases hrest : rest.mapM f with
          | error e => cases out <;> simp [← ih, hrest, hhead, bind, Except.bind]
          | ok bs =>
              cases out <;> simp [← ih, hrest, hhead, bind, Except.bind, pure, Except.pure]

/-- A computation fails after another one if and only if one of them does. -/
theorem bind_eq_error_iff {x : Except ε α} {f : α → Except ε β} {e : ε} :
    x >>= f = .error e ↔ x = .error e ∨ ∃ a, x = .ok a ∧ f a = .error e := by
  cases x <;> simp [bind, Except.bind]

/-- A list that cannot be processed has an element that cannot. -/
theorem exists_of_mapM_eq_error {f : α → Except ε β} {items : List α} {e : ε}
    (h : items.mapM f = .error e) : ∃ a ∈ items, f a = .error e := by
  induction items with
  | nil => simp [pure, Except.pure] at h
  | cons a rest ih =>
      rw [List.mapM_cons] at h
      rcases bind_eq_error_iff.mp h with hhead | ⟨b, -, hrest⟩
      · exact ⟨a, by simp, hhead⟩
      · rcases bind_eq_error_iff.mp hrest with hrest | ⟨_, -, hnever⟩
        · obtain ⟨x, hx, hfails⟩ := ih hrest
          exact ⟨x, List.mem_cons_of_mem a hx, hfails⟩
        · cases hnever

/-- A list is processed if every element can be. -/
theorem exists_mapM_eq_ok {f : α → Except ε β} {items : List α}
    (h : ∀ a ∈ items, ∃ b, f a = .ok b) : ∃ out, items.mapM f = .ok out := by
  cases hresult : items.mapM f with
  | ok out => exact ⟨out, rfl⟩
  | error e =>
      obtain ⟨a, ha, hfails⟩ := exists_of_mapM_eq_error hresult
      obtain ⟨b, hb⟩ := h a ha
      simp [hb] at hfails

/-- A fold that fails does so at one of the elements. -/
theorem exists_of_foldlM_eq_error {f : β → α → Except ε β} {items : List α} {b : β} {e : ε}
    (h : items.foldlM f b = .error e) : ∃ a ∈ items, ∃ b, f b a = .error e := by
  induction items generalizing b with
  | nil => simp [pure, Except.pure] at h
  | cons a rest ih =>
      rw [List.foldlM_cons] at h
      rcases bind_eq_error_iff.mp h with hhead | ⟨next, -, hrest⟩
      · exact ⟨a, by simp, b, hhead⟩
      · obtain ⟨x, hx, hfails⟩ := ih hrest
        exact ⟨x, List.mem_cons_of_mem a hx, hfails⟩

/-- Every element of a list that corresponds to another one has its counterpart there. -/
theorem exists_of_mem_of_forall₂ {R : α → β → Prop} {items : List α} {out : List β}
    (h : List.Forall₂ R items out) {b : β} (hb : b ∈ out) : ∃ a ∈ items, R a b := by
  induction h with
  | nil => simp at hb
  | @cons a c rest bs hac _ ih =>
      rcases List.mem_cons.mp hb with rfl | hb
      · exact ⟨a, by simp, hac⟩
      · obtain ⟨a, ha, hab⟩ := ih hb
        exact ⟨a, List.mem_cons_of_mem _ ha, hab⟩

/-- If every element has a counterpart, the list has. -/
theorem exists_forall₂_of_forall {R : α → β → Prop} {items : List α}
    (h : ∀ a ∈ items, ∃ b, R a b) : ∃ out, List.Forall₂ R items out := by
  induction items with
  | nil => exact ⟨[], .nil⟩
  | cons a rest ih =>
      obtain ⟨⟨b, hb⟩, hrest⟩ := List.forall_mem_cons.mp h
      obtain ⟨out, hout⟩ := ih hrest
      exact ⟨b :: out, .cons hb hout⟩

/-- Elements that correspond if they have the same image are mapped to the same list. -/
theorem map_eq_map_of_forall₂ {γ : Type} {f : α → γ} {g : β → γ} {as : List α} {bs : List β}
    (h : List.Forall₂ (fun a b => f a = g b) as bs) : as.map f = bs.map g := by
  induction h with
  | nil => rfl
  | cons hab _ ih => rw [List.map_cons, List.map_cons, hab, ih]

/-- Something holds of all elements if it does of all that correspond to them. -/
theorem forall_mem_iff_of_forall₂ {p : α → Prop} {q : β → Prop} {as : List α} {bs : List β}
    (h : List.Forall₂ (fun a b => p a ↔ q b) as bs) : (∀ a ∈ as, p a) ↔ ∀ b ∈ bs, q b := by
  induction h with
  | nil => simp
  | cons hab _ ih => rw [List.forall_mem_cons, List.forall_mem_cons, hab, ih]

/-- Something holds of some element if it does of one that corresponds to it. -/
theorem exists_mem_iff_of_forall₂ {p : α → Prop} {q : β → Prop} {as : List α} {bs : List β}
    (h : List.Forall₂ (fun a b => p a ↔ q b) as bs) : (∃ a ∈ as, p a) ↔ ∃ b ∈ bs, q b := by
  induction h with
  | nil => simp
  | cons hab _ ih => rw [List.exists_mem_cons_iff, List.exists_mem_cons_iff, hab, ih]

/-- A relation of lists that only asks something of the elements of the first asks it of all of them. -/
theorem forall₂_iff_forall_mem {P : α → β → Prop} {Q : α → Prop} {as : List α} {bs : List β}
    (h : List.Forall₂ (fun a b => P a b ↔ Q a) as bs) : List.Forall₂ P as bs ↔ ∀ a ∈ as, Q a := by
  induction h with
  | nil => simp
  | cons hab _ ih => rw [List.forall₂_cons, List.forall_mem_cons, hab, ih]

/-- Lists that correspond one after the other correspond through the pairs between them. -/
theorem forall₂_of_zip {γ δ : Type} {P : α → β → Prop} {Q : β → γ → Prop} {R : β × γ → δ → Prop}
    {as : List α} {bs : List β} {cs : List γ} {ds : List δ} (hP : List.Forall₂ P as bs)
    (hQ : List.Forall₂ Q bs cs) (hR : List.Forall₂ R (bs.zip cs) ds) :
    List.Forall₂ (fun a d => ∃ b c, P a b ∧ Q b c ∧ R (b, c) d) as ds := by
  induction hP generalizing cs ds with
  | nil =>
      cases hR
      exact .nil
  | @cons a b as bs hab _ ih =>
      cases hQ with
      | cons hbc hQ =>
          cases hR with
          | cons hd hR => exact .cons ⟨_, _, hab, hbc, hd⟩ (ih hQ hR)

/-- A list passes a check if and only if every element does. -/
theorem forM_eq_ok_iff {f : α → Except ε Unit} {items : List α} :
    items.forM f = .ok () ↔ ∀ a ∈ items, f a = .ok () := by
  induction items with
  | nil => simp [pure, Except.pure]
  | cons a rest ih =>
      have hcons : (a :: rest).forM f = f a >>= fun _ => rest.forM f := rfl
      rw [hcons, check_bind_eq_ok_iff, List.forall_mem_cons, ← ih]

/-- What is refused under a condition succeeds only without it. -/
theorem guard_eq_ok_iff {condition : Prop} [Decidable condition] {e : ε}
    {f : Unit → Except ε α} {a : α} :
    (if condition then throw e >>= f else f ()) = .ok a ↔ ¬ condition ∧ f () = .ok a := by
  by_cases h : condition
  · simp [h, throw, throwThe, MonadExceptOf.throw, bind, Except.bind]
  · simp [h]

/-- A list that fails a check has an element that does. -/
theorem exists_of_forM_eq_error {f : α → Except ε Unit} {items : List α} {e : ε}
    (h : items.forM f = .error e) : ∃ a ∈ items, f a = .error e := by
  induction items with
  | nil => simp [pure, Except.pure] at h
  | cons a rest ih =>
      have hcons : (a :: rest).forM f = f a >>= fun _ => rest.forM f := rfl
      rw [hcons] at h
      rcases bind_eq_error_iff.mp h with hhead | ⟨_, -, hrest⟩
      · exact ⟨a, by simp, hhead⟩
      · obtain ⟨x, hx, hfails⟩ := ih hrest
        exact ⟨x, List.mem_cons_of_mem a hx, hfails⟩

/-- What is refused under a condition fails under it, or behind it. -/
theorem guard_eq_error_iff {condition : Prop} [Decidable condition] {e other : ε}
    {f : Unit → Except ε α} :
    (if condition then throw e >>= f else f ()) = .error other ↔
      condition ∧ e = other ∨ ¬ condition ∧ f () = .error other := by
  by_cases h : condition
  · simp [h, throw, throwThe, MonadExceptOf.throw, bind, Except.bind]
  · simp [h]

end FederatedMetrics
