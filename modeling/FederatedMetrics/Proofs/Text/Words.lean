import FederatedMetrics.Text.Blank
import Mathlib.Data.List.TakeWhile

/-!
# Words

A text falls into words at its blanks. It makes no difference how many blanks stand between two words,
or whether any stand before the first word and behind the last one.
-/

namespace FederatedMetrics.Text

variable {cs rest gap : List Char} {b : Char}

/-- What holds of texts without blanks and goes over from both sides of a blank to the whole, holds of all
texts. -/
@[elab_as_elim]
theorem blankInduction {motive : List Char → Prop}
    (unblank : ∀ cs, (∀ c ∈ cs, isBlank c = false) → motive cs)
    (blank : ∀ cs b rest, isBlank b = true → motive cs → motive rest → motive (cs ++ b :: rest))
    (cs : List Char) : motive cs := by
  -- The text without blanks that has been gone over stands in front of what is left.
  suffices h : ∀ before, (∀ c ∈ before, isBlank c = false) → motive (before ++ cs) from h [] (by simp)
  induction cs with
  | nil =>
      intro before hbefore
      rw [List.append_nil]
      exact unblank before hbefore
  | cons c rest ih =>
      intro before hbefore
      cases hc : isBlank c with
      | true => exact blank before c rest hc (unblank before hbefore) (ih [] (by simp))
      | false =>
          rw [List.append_cons]
          exact ih _ (List.forall_mem_append.mpr ⟨hbefore, by simpa using hc⟩)

/-! ## Where words end -/

/-- A blank ends the word that has begun. -/
theorem wordsFrom_append_cons (hb : isBlank b = true) (begun cs rest : List Char) :
    wordsFrom begun (cs ++ b :: rest) = wordsFrom begun cs ++ words rest := by
  induction cs generalizing begun with
  | nil => cases begun <;> simp [wordsFrom, words, hb]
  | cons c cs ih =>
      rw [List.cons_append, wordsFrom, wordsFrom]
      split
      · split
        · exact ih []
        · rw [ih [], List.cons_append]
      · exact ih (c :: begun)

theorem words_append_cons (hb : isBlank b = true) (cs rest : List Char) :
    words (cs ++ b :: rest) = words cs ++ words rest :=
  wordsFrom_append_cons hb [] cs rest

theorem wordsFrom_of_unblank (h : ∀ c ∈ cs, isBlank c = false) (begun : List Char) :
    wordsFrom begun cs = wordsFrom (cs.reverse ++ begun) [] := by
  induction cs generalizing begun with
  | nil => rfl
  | cons c cs ih =>
      obtain ⟨hc, hcs⟩ := List.forall_mem_cons.mp h
      have hgoes : wordsFrom begun (c :: cs) = wordsFrom (c :: begun) cs := by simp [wordsFrom, hc]
      rw [hgoes, ih hcs, List.reverse_cons, List.append_assoc, List.singleton_append]

/-- A text without blanks is a word. -/
theorem words_of_unblank (h : ∀ c ∈ cs, isBlank c = false) (hne : cs ≠ []) : words cs = [cs] := by
  rw [words, wordsFrom_of_unblank h, List.append_nil, wordsFrom]
  simp [hne]

/-- Words are not empty and hold no blanks. -/
theorem of_mem_words {word : List Char} (h : word ∈ words cs) :
    word ≠ [] ∧ ∀ c ∈ word, isBlank c = false := by
  induction cs using blankInduction with
  | unblank cs hcs =>
      by_cases hne : cs = []
      · subst hne
        exact absurd h (List.not_mem_nil)
      · rw [words_of_unblank hcs hne] at h
        obtain rfl := List.mem_singleton.mp h
        exact ⟨hne, hcs⟩
  | blank cs b rest hb ihLeft ihRight =>
      rw [words_append_cons hb] at h
      exact (List.mem_append.mp h).elim ihLeft ihRight

/-- A text has no words exactly if it is blank. -/
theorem words_eq_nil_iff : words cs = [] ↔ ∀ c ∈ cs, isBlank c = true := by
  induction cs using blankInduction with
  | unblank cs hcs =>
      cases cs with
      | nil => exact iff_of_true rfl (by simp)
      | cons c rest =>
          rw [words_of_unblank hcs (List.cons_ne_nil c rest)]
          have hc := hcs c List.mem_cons_self
          simp [hc]
  | blank cs b rest hb ihLeft ihRight =>
      rw [words_append_cons hb, List.append_eq_nil_iff, ihLeft, ihRight, List.forall_mem_append,
        List.forall_mem_cons, and_iff_right hb]

/-! ## Blanks that make no difference -/

theorem words_append_left {blanks : List Char} (hblanks : ∀ c ∈ blanks, isBlank c = true)
    (cs : List Char) : words (blanks ++ cs) = words cs := by
  induction blanks with
  | nil => rfl
  | cons c blanks ih =>
      obtain ⟨hc, hrest⟩ := List.forall_mem_cons.mp hblanks
      have hbegins := words_append_cons hc [] (blanks ++ cs)
      exact hbegins.trans (ih hrest)

/-- Any number of blanks ends a word like one. -/
theorem words_append_gap (hgap : ∀ c ∈ gap, isBlank c = true) (hne : gap ≠ []) (cs rest : List Char) :
    words (cs ++ gap ++ rest) = words cs ++ words rest := by
  obtain ⟨b, blanks, rfl⟩ := List.exists_cons_of_ne_nil hne
  obtain ⟨hb, hblanks⟩ := List.forall_mem_cons.mp hgap
  rw [List.append_assoc, List.cons_append, words_append_cons hb, words_append_left hblanks]

theorem words_append_right {blanks : List Char} (hblanks : ∀ c ∈ blanks, isBlank c = true)
    (cs : List Char) : words (cs ++ blanks) = words cs := by
  by_cases hne : blanks = []
  · rw [hne, List.append_nil]
  · have hgap := words_append_gap hblanks hne cs []
    rwa [List.append_nil, words_eq_nil_iff.mpr (List.forall_mem_nil _), List.append_nil] at hgap

/-- Trimming takes blanks away on both sides. -/
theorem exists_eq_trimChars (cs : List Char) :
    ∃ left right, (∀ c ∈ left, isBlank c = true) ∧ (∀ c ∈ right, isBlank c = true) ∧
      cs = left ++ trimChars cs ++ right := by
  let inside := cs.dropWhile isBlank
  refine ⟨cs.takeWhile isBlank, (inside.reverse.takeWhile isBlank).reverse,
    fun c hc => List.mem_takeWhile_imp hc,
    fun c hc => List.mem_takeWhile_imp (List.mem_reverse.mp hc), ?_⟩
  have hinside : trimChars cs ++ (inside.reverse.takeWhile isBlank).reverse = inside := by
    rw [trimChars, ← List.reverse_append, List.takeWhile_append_dropWhile, List.reverse_reverse]
  rw [List.append_assoc, hinside, List.takeWhile_append_dropWhile]

theorem words_trimChars (cs : List Char) : words (trimChars cs) = words cs := by
  obtain ⟨left, right, hleft, hright, hcs⟩ := exists_eq_trimChars cs
  calc words (trimChars cs) = words (left ++ trimChars cs ++ right) := by
        rw [words_append_right hright, words_append_left hleft]
    _ = words cs := congrArg words hcs.symm

end FederatedMetrics.Text
