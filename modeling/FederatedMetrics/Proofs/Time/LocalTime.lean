import FederatedMetrics.Proofs.Time.ClockText
import FederatedMetrics.Time.Zone

/-!
# Instants of local times

A local time stands for the first instant of the calendar at which local clocks show it. Where a
zone never changes its offset, each instant is that of its local time; where clocks are at most a day
off, local times are near to universal time.
-/

namespace FederatedMetrics

namespace Calendar

theorem holds_iff {second : Int} :
    holds second ↔ firstSecond ≤ second ∧ second ≤ lastSecond := by
  simp [holds]

end Calendar

namespace Zone

variable {zone : Zone} {instant time first last : Int}

/-! ## The instant of a local time -/

theorem offsetAt_mem_offsets (zone : Zone) (instant : Int) :
    zone.offsetAt instant ∈ zone.offsets := by
  obtain ⟨name, base, changes⟩ := zone
  simp only [offsetAt, offsets]
  induction changes generalizing base with
  | nil => exact List.mem_singleton_self base
  | cons change rest ih =>
      rw [List.foldl_cons, List.map_cons]
      by_cases h : change.1 ≤ instant
      · rw [if_pos h]
        exact List.mem_cons_of_mem _ (ih change.2)
      · rw [if_neg h]
        exact List.cons_subset_cons base (List.subset_cons_self _ _) (ih base)

theorem mem_instantsOf_iff :
    instant ∈ zone.instantsOf time ↔ Calendar.holds instant ∧ zone.clock instant = time := by
  simp only [instantsOf, List.mem_filter, List.mem_map, Bool.and_eq_true, decide_eq_true_eq]
  constructor
  · rintro ⟨-, hclock, hholds⟩
    exact ⟨hholds, hclock⟩
  · rintro ⟨hholds, rfl⟩
    exact ⟨⟨zone.offsetAt instant, zone.offsetAt_mem_offsets instant, by rw [clock]; omega⟩, rfl,
      hholds⟩

theorem earliest?_eq_min? (zone : Zone) (time : Int) :
    zone.earliest? time = (zone.instantsOf time).min? := by
  have hfold : ∀ (instants : List Int) (found : Int),
      instants.foldl earlier (some found) = some (instants.foldl min found) := by
    intro instants
    induction instants with
    | nil => exact fun found => rfl
    | cons instant rest ih => exact fun found => ih (min found instant)
  rw [earliest?]
  cases zone.instantsOf time with
  | nil => rfl
  | cons instant rest => exact hfold rest instant

/-- A local time stands for the first instant of the calendar that shows it, or for itself where none
does. -/
theorem localize_spec (zone : Zone) (time : Int) :
    (Calendar.holds (zone.localize time) ∧ zone.clock (zone.localize time) = time ∧
      ∀ instant, Calendar.holds instant → zone.clock instant = time → zone.localize time ≤ instant) ∨
    (∀ instant, Calendar.holds instant → zone.clock instant ≠ time) ∧ zone.localize time = time := by
  rw [localize, earliest?_eq_min?]
  cases hmin : (zone.instantsOf time).min? with
  | none =>
      refine Or.inr ⟨fun instant hholds hclock => ?_, rfl⟩
      have hmem : instant ∈ zone.instantsOf time := mem_instantsOf_iff.mpr ⟨hholds, hclock⟩
      rw [List.min?_eq_none_iff.mp hmin] at hmem
      exact List.not_mem_nil hmem
  | some earliest =>
      obtain ⟨hmem, hle⟩ := List.min?_eq_some_iff.mp hmin
      obtain ⟨hholds, hclock⟩ := mem_instantsOf_iff.mp hmem
      exact Or.inl ⟨hholds, hclock, fun instant hholds hclock =>
        hle instant (mem_instantsOf_iff.mpr ⟨hholds, hclock⟩)⟩

/-! ## Zones that never change their offset -/

/-- Local clocks never change their distance from universal time. -/
def IsConstant (zone : Zone) : Prop := ∀ instant, zone.offsetAt instant = zone.base

/-- An instant of the calendar at which the local time belongs to the calendar too. -/
def Shows (zone : Zone) (instant : Int) : Prop :=
  Calendar.holds instant ∧ Calendar.holds (zone.clock instant)

theorem isConstant_utc : utc.IsConstant := offsetAt_utc

theorem isConstant_fixed (name : String) (offset : Int) : (fixed name offset).IsConstant :=
  fun _ => rfl

/-- The zone of India. -/
def kolkata : Zone := fixed "Asia/Kolkata" 19800

theorem IsConstant.clock_eq (h : zone.IsConstant) (instant : Int) :
    zone.clock instant = instant + zone.base := by
  rw [clock, h instant]

theorem IsConstant.clock_strictMono (h : zone.IsConstant) : StrictMono zone.clock :=
  fun _ _ hlt => by
    rw [h.clock_eq, h.clock_eq]
    omega

/-- Every local time is shown at one instant. -/
theorem IsConstant.localize_clock (h : zone.IsConstant) (hholds : Calendar.holds instant) :
    zone.localize (zone.clock instant) = instant := by
  rcases zone.localize_spec (zone.clock instant) with ⟨-, hclock, -⟩ | ⟨hnone, -⟩
  · exact h.clock_strictMono.injective hclock
  · exact absurd rfl (hnone instant hholds)

theorem localize_utc (h : Calendar.holds time) : utc.localize time = time := by
  have hsame := isConstant_utc.localize_clock h
  rwa [clock_utc] at hsame

theorem IsConstant.stamp_injective (h : zone.IsConstant) : Function.Injective zone.stamp := by
  intro start later hstamp
  rw [stamp, stamp, h start, h later, String.append_left_inj] at hstamp
  exact h.clock_strictMono.injective (clockText_injective hstamp)

/-- The calendar has no gap. -/
theorem IsConstant.shows_of_mem (h : zone.IsConstant) (hfirst : zone.Shows first)
    (hlast : zone.Shows last) (hge : first ≤ instant) (hle : instant ≤ last) :
    zone.Shows instant := by
  simp only [Shows, Calendar.holds_iff, h.clock_eq] at *
  omega

/-! ## Zones near to universal time -/

/-- Local clocks are at most a day ahead of universal time or behind it. -/
def IsNear (zone : Zone) : Prop := ∀ offset ∈ zone.offsets, -86400 ≤ offset ∧ offset ≤ 86400

theorem IsNear.clock_near (h : zone.IsNear) (instant : Int) :
    instant - 86400 ≤ zone.clock instant ∧ zone.clock instant ≤ instant + 86400 := by
  have hoffset := h _ (zone.offsetAt_mem_offsets instant)
  rw [clock]
  omega

theorem IsNear.localize_ge (h : zone.IsNear) (time : Int) : time - 86400 ≤ zone.localize time := by
  have hnear := h.clock_near (zone.localize time)
  rcases zone.localize_spec time with ⟨-, hclock, -⟩ | ⟨-, hsame⟩
  · omega
  · omega

end Zone

end FederatedMetrics
