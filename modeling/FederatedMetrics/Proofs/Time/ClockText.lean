import FederatedMetrics.Proofs.Time.Months
import Mathlib.Data.String.Basic

/-!
# Texts of local times

The text of a local time gives its year in as many digits as it needs and everything else in two
digits, so that no two local times have the same text.
-/

namespace FederatedMetrics

/-! ## Padded numbers -/

theorem toList_padded (width n : Nat) : (padded width n).toList =
    List.replicate (width - n.repr.length) '0' ++ Nat.toDigits 10 n := by
  simp [padded]

private theorem ofDigitChars_replicate (count : Nat) (digits : List Char) :
    Nat.ofDigitChars 10 (List.replicate count '0' ++ digits) 0 = Nat.ofDigitChars 10 digits 0 := by
  induction count with
  | zero => rfl
  | succ count ih => simpa [List.replicate_succ, Nat.ofDigitChars] using ih

theorem padded_injective (width : Nat) : Function.Injective (padded width) := by
  intro m n h
  have hdigits := congrArg (fun text => Nat.ofDigitChars 10 text.toList 0) h
  simpa [toList_padded, ofDigitChars_replicate] using hdigits

theorem length_padded {width n : Nat} (hwidth : 0 < width) (h : n < 10 ^ width) :
    (padded width n).length = width := by
  have hle : n.repr.length ≤ width := (Nat.length_repr_le_iff hwidth).mpr h
  simp [padded]
  omega

theorem isDigit_of_mem_padded {width n : Nat} {c : Char} (h : c ∈ (padded width n).toList) :
    c.isDigit = true := by
  rw [toList_padded, List.mem_append] at h
  rcases h with hzero | hdigit
  · rw [List.eq_of_mem_replicate hzero]
    rfl
  · exact Nat.isDigit_of_mem_toDigits (by decide) (by decide) hdigit

/-- Two digits are cut off from the end of a text. -/
theorem eq_of_append_padded {text other : String} {m n : Nat} (hm : m < 100) (hn : n < 100)
    (h : text ++ padded 2 m = other ++ padded 2 n) : text = other ∧ m = n := by
  have hlength : (padded 2 m).toList.length = (padded 2 n).toList.length := by
    rw [String.length_toList, String.length_toList, length_padded (by decide) hm,
      length_padded (by decide) hn]
  have hlists := congrArg String.toList h
  rw [String.toList_append, String.toList_append] at hlists
  obtain ⟨htext, hdigits⟩ := List.append_inj' hlists hlength
  exact ⟨String.toList_inj.mp htext, padded_injective 2 (String.toList_inj.mp hdigits)⟩

/-! ## Local times -/

theorem sign_append_padded_ne {sign : String} (hsign : sign = "-" ∨ sign = "+") (m n : Nat) :
    sign ++ padded 4 m ≠ padded 4 n := by
  obtain ⟨c, hmem, hc⟩ : ∃ c ∈ sign.toList, c.isDigit = false := by
    rcases hsign with rfl | rfl
    · exact ⟨'-', by decide, by decide⟩
    · exact ⟨'+', by decide, by decide⟩
  intro h
  have hpadded : c ∈ (padded 4 n).toList := by
    rw [← h, String.toList_append]
    exact List.mem_append_left _ hmem
  rw [isDigit_of_mem_padded hpadded] at hc
  cases hc

theorem sign_append_padded_injective {year other : Int}
    (h : (if year < 0 then "-" else "+") ++ padded 4 year.natAbs =
      (if other < 0 then "-" else "+") ++ padded 4 other.natAbs) : year = other := by
  by_cases hyear : year < 0
  · by_cases hother : other < 0
    · rw [if_pos hyear, if_pos hother, String.append_right_inj] at h
      have := padded_injective 4 h
      omega
    · rw [if_pos hyear, if_neg hother] at h
      simpa using congrArg String.toList h
  · by_cases hother : other < 0
    · rw [if_neg hyear, if_pos hother] at h
      simpa using congrArg String.toList h
    · rw [if_neg hyear, if_neg hother, String.append_right_inj] at h
      have := padded_injective 4 h
      omega

theorem yearText_injective : Function.Injective yearText := by
  have hsign (year : Int) : (if year < 0 then "-" else "+") = "-" ∨
      (if year < 0 then "-" else "+") = "+" := (ite_eq_or_eq _ _ _)
  intro year other h
  unfold yearText at h
  by_cases hyear : 0 ≤ year ∧ year ≤ 9999
  · by_cases hother : 0 ≤ other ∧ other ≤ 9999
    · rw [if_pos hyear, if_pos hother] at h
      have := padded_injective 4 h
      omega
    · rw [if_pos hyear, if_neg hother] at h
      exact absurd h.symm (sign_append_padded_ne (hsign other) _ _)
  · by_cases hother : 0 ≤ other ∧ other ≤ 9999
    · rw [if_neg hyear, if_pos hother] at h
      exact absurd h (sign_append_padded_ne (hsign year) _ _)
    · rw [if_neg hyear, if_neg hother] at h
      exact sign_append_padded_injective h

/-- The bounds of a date that fit it into two digits. -/
private theorem ofDay_bounds (day : Int) :
    (1 ≤ (Date.ofDay day).month ∧ (Date.ofDay day).month < 100) ∧
      (1 ≤ (Date.ofDay day).day ∧ (Date.ofDay day).day < 100) := by
  obtain ⟨⟨hmonth, hmonth_le⟩, ⟨hday, -⟩, -⟩ := Date.ofDay_spec day
  have hday_le := Date.ofDay_day_le day
  omega

theorem clockText_injective : Function.Injective clockText := by
  intro second other h
  obtain ⟨⟨hmonth, hmonth_lt⟩, hday, hday_lt⟩ := ofDay_bounds (Calendar.dayOf second)
  obtain ⟨⟨hmonth', hmonth_lt'⟩, hday', hday_lt'⟩ := ofDay_bounds (Calendar.dayOf other)
  have htime : second % Calendar.secondsPerDay < 86400 := Int.emod_lt_of_pos _ (by decide)
  have htime' : other % Calendar.secondsPerDay < 86400 := Int.emod_lt_of_pos _ (by decide)
  -- The text is cut from its end on.
  simp only [clockText] at h
  obtain ⟨h, hseconds⟩ := eq_of_append_padded (by omega) (by omega) h
  obtain ⟨h, hminutes⟩ :=
    eq_of_append_padded (by omega) (by omega) ((String.append_left_inj ":").mp h)
  obtain ⟨h, hhours⟩ :=
    eq_of_append_padded (by omega) (by omega) ((String.append_left_inj ":").mp h)
  obtain ⟨h, hdays⟩ :=
    eq_of_append_padded (by omega) (by omega) ((String.append_left_inj "T").mp h)
  obtain ⟨h, hmonths⟩ :=
    eq_of_append_padded (by omega) (by omega) ((String.append_left_inj "-").mp h)
  have hyears := yearText_injective ((String.append_left_inj "-").mp h)
  have hdate : Date.ofDay (Calendar.dayOf second) = Date.ofDay (Calendar.dayOf other) := by
    generalize Date.ofDay (Calendar.dayOf second) = date at *
    generalize Date.ofDay (Calendar.dayOf other) = date' at *
    cases date with
    | mk year month day =>
      cases date' with
      | mk year' month' day' =>
        simp only at hyears hmonth hmonth' hmonths hday hday' hdays
        rw [Date.mk.injEq]
        omega
  have hsame : Calendar.dayOf second = Calendar.dayOf other := by
    simpa using congrArg Date.toDay hdate
  unfold Calendar.dayOf Calendar.secondsPerDay at *
  omega

end FederatedMetrics
