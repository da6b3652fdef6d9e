import FederatedMetrics.Mapping.Name
import FederatedMetrics.Proofs.Text.Lowercase

/-!
# Normal forms of names

The normal form of a display name depends on the words of the name alone: it joins them by underscores,
each in lower case. It has no blanks and is in lower case, so it is a word of its own and its own normal
form.
-/

namespace FederatedMetrics.PropertyMapping

theorem mem_joinWords {words : List (List Char)} {c : Char} (h : c ∈ joinWords words) :
    c = '_' ∨ ∃ word ∈ words, c ∈ word := by
  fun_induction joinWords words with
  | case1 => simp at h
  | case2 word => exact .inr ⟨word, by simp, h⟩
  | case3 word rest _ ih =>
      rcases List.mem_append.mp h with hword | hrest
      · exact .inr ⟨word, by simp, hword⟩
      · rcases List.mem_cons.mp hrest with rfl | hrest
        · exact .inl rfl
        · rcases ih hrest with hjoint | ⟨other, hother, hc⟩
          · exact .inl hjoint
          · exact .inr ⟨other, List.mem_cons_of_mem _ hother, hc⟩

/-- Words that are joined leave nothing only if there are none. -/
theorem joinWords_eq_nil_iff {words : List (List Char)} (h : ∀ word ∈ words, word ≠ []) :
    joinWords words = [] ↔ words = [] := by
  fun_cases joinWords words with
  | case1 => simp
  | case2 word => simpa using h word (by simp)
  | case3 word rest _ => simp

/-- The normal form joins the words of a name, each in lower case by itself. -/
theorem normalizeName_eq (name : String) :
    normalizeName name = String.ofList (joinWords ((Text.words name.toList).map Text.lowerChars)) := by
  rw [normalizeName, Text.words_lowerChars, Text.words_trimChars]

/-- Names with the same words have the same normal form. -/
theorem normalizeName_congr {name other : String}
    (h : Text.words name.toList = Text.words other.toList) : normalizeName name = normalizeName other := by
  rw [normalizeName_eq, normalizeName_eq, h]

theorem of_mem_normalizeName {name : String} {c : Char} (h : c ∈ (normalizeName name).toList) :
    Text.isBlank c = false ∧ Text.IsLowerCase c := by
  rw [normalizeName_eq, String.toList_ofList] at h
  rcases mem_joinWords h with rfl | ⟨lower, hlower, hc⟩
  · decide +kernel
  · obtain ⟨word, hword, rfl⟩ := List.mem_map.mp hlower
    exact ⟨Text.isBlank_of_mem_lowerFrom (Text.of_mem_words hword).2 c hc,
      Text.isLowerCase_of_mem_lowerFrom hc⟩

/-- The normal form of a name holds no blanks. -/
theorem hasBlank_normalizeName (name : String) : Text.hasBlank (normalizeName name) = false := by
  rw [Text.hasBlank, List.any_eq_false]
  intro c hc
  simp [(of_mem_normalizeName hc).1]

/-- A normal form is its own normal form: it is one word, or none, and in lower case. -/
theorem normalizeName_normalizeName (name : String) :
    normalizeName (normalizeName name) = normalizeName name := by
  have hunblank : ∀ c ∈ (normalizeName name).toList, Text.isBlank c = false :=
    fun c hc => (of_mem_normalizeName hc).1
  have hlower : Text.lowerChars (normalizeName name).toList = (normalizeName name).toList :=
    Text.lowerFrom_eq_self (fun c hc => (of_mem_normalizeName hc).2) []
  rw [normalizeName_eq (normalizeName name)]
  by_cases hempty : (normalizeName name).toList = []
  · rw [hempty, String.toList_eq_nil_iff.mp hempty]
    rfl
  · rw [Text.words_of_unblank hunblank hempty, List.map_singleton, hlower, joinWords,
      String.ofList_toList]

/-- A name has an empty normal form exactly if it is blank. -/
theorem normalizeName_eq_empty_iff (name : String) :
    normalizeName name = "" ↔ Text.isBlankText name = true := by
  have hwords : ∀ word ∈ (Text.words name.toList).map Text.lowerChars, word ≠ [] := by
    intro lower hlower
    obtain ⟨word, hword, rfl⟩ := List.mem_map.mp hlower
    exact fun h => (Text.of_mem_words hword).1 (Text.lowerFrom_eq_nil_iff.mp h)
  rw [normalizeName_eq, String.ofList_eq_empty_iff, joinWords_eq_nil_iff hwords, List.map_eq_nil_iff,
    Text.words_eq_nil_iff, Text.isBlankText, List.all_eq_true]

/-- Blanks on the sides of a name make no difference. -/
theorem normalizeName_append_sides {left right : String} (hleft : Text.isBlankText left = true)
    (hright : Text.isBlankText right = true) (name : String) :
    normalizeName (left ++ name ++ right) = normalizeName name := by
  apply normalizeName_congr
  rw [String.toList_append, String.toList_append,
    Text.words_append_right (List.all_eq_true.mp hright), Text.words_append_left (List.all_eq_true.mp hleft)]

/-- Between two words of a name, all gaps are alike. -/
theorem normalizeName_append_gap {gap : String} (hgap : Text.isBlankText gap = true) (hne : gap ≠ "")
    (name rest : String) :
    normalizeName (name ++ gap ++ rest) = normalizeName (name ++ " " ++ rest) := by
  have hone : Text.isBlankText " " = true := rfl
  apply normalizeName_congr
  rw [String.toList_append, String.toList_append, String.toList_append, String.toList_append,
    Text.words_append_gap (List.all_eq_true.mp hgap) (fun h => hne (String.toList_eq_nil_iff.mp h)),
    Text.words_append_gap (List.all_eq_true.mp hone) (by decide)]

/-- The stored display name has the same normal form as the one of the request. -/
theorem normalizeName_trim (displayName : String) :
    normalizeName (Text.trim displayName) = normalizeName displayName := by
  apply normalizeName_congr
  rw [Text.trim, String.toList_ofList, Text.words_trimChars]

end FederatedMetrics.PropertyMapping
