import FederatedMetrics.Time.Bucket
import Mathlib.Algebra.Order.Ring.Int
import Mathlib.Logic.Relation

/-!
# The walk over the buckets of a window

The starts of buckets are found by steps that only go forward. The walk lists what the steps reach
from the first bucket on, up to the end of the window. It misses a bucket where a step stops before
that bucket or goes over it.
-/

namespace FederatedMetrics

/-- A bucket that counts as the next one starts later. -/
theorem Granularity.Next.lt_of_after {previous start later : Int}
    (h : Next.after previous start = .bucket later) : previous < later := by
  rw [Next.after] at h
  split at h
  · cases h
    assumption
  · cases h

namespace Granularity

variable {g : Granularity} {zone : Zone} {last start later : Int} {run : List Int}

/-- One bucket comes right after another in the walk. -/
def Follows (g : Granularity) (zone : Zone) (start later : Int) : Prop :=
  g.next zone start = .bucket later

/-- A bucket is reached from another one by steps. -/
def Reaches (g : Granularity) (zone : Zone) : Int → Int → Prop :=
  Relation.ReflTransGen (g.Follows zone)

/-- No bucket that is reached before an instant is the last one or is followed by one after that
instant. -/
def Approaches (g : Granularity) (zone : Zone) (start instant : Int) : Prop :=
  start ≤ instant ∧ ∀ bucket, g.Reaches zone start bucket → bucket < instant →
    ∃ later, g.Follows zone bucket later ∧ later ≤ instant

private theorem lt_of_onDay {previous day : Int} {otherwise : Next}
    (hotherwise : ∀ later, otherwise ≠ .bucket later)
    (h : Next.onDay zone previous day otherwise = .bucket later) : previous < later := by
  rw [Next.onDay] at h
  split at h
  · exact Next.lt_of_after h
  · exact absurd h (hotherwise later)

/-- Every step goes forward. -/
theorem Follows.lt (h : g.Follows zone start later) : start < later := by
  simp only [Follows, next] at h
  split at h
  · cases h
  · cases g with
    | hour =>
        simp only at h
        split at h
        · cases hstart : start? .hour zone (start + 3600) with
          | some following => exact Next.lt_of_after (hstart ▸ h)
          | none => simp [hstart] at h
        · cases h
    | date | week | month | quarter => exact lt_of_onDay (by simp) h

theorem Follows.eq {other : Int} (h : g.Follows zone start later)
    (hother : g.Follows zone start other) : later = other := by
  rw [Follows] at h hother
  simpa [h] using hother

theorem Reaches.le (h : g.Reaches zone start later) : start ≤ later := by
  induction h with
  | refl => exact le_rfl
  | tail _ hstep ih => exact ih.trans hstep.lt.le

/-- What is reached from a bucket is that bucket or is reached from the next one. -/
theorem reaches_iff_of_follows {instant : Int} (h : g.Follows zone start later) :
    g.Reaches zone start instant ↔ instant = start ∨ g.Reaches zone later instant := by
  constructor
  · intro hreaches
    rcases Relation.ReflTransGen.cases_head hreaches with rfl | ⟨next, hnext, hrest⟩
    · exact Or.inl rfl
    · exact Or.inr (hnext.eq h ▸ hrest)
  · rintro (rfl | hrest)
    · exact .refl
    · exact .head h hrest

/-- Nothing else is reached from a bucket without a next one. -/
theorem reaches_iff_of_nothing {instant : Int} (h : g.next zone start = .nothing) :
    g.Reaches zone start instant ↔ instant = start := by
  constructor
  · intro hreaches
    rcases Relation.ReflTransGen.cases_head hreaches with rfl | ⟨later, hfollows, -⟩
    · rfl
    · simp [Follows, h] at hfollows
  · rintro rfl
    exact .refl

/-- An instant is approached step by step if and only if it is a bucket that is reached. -/
theorem approaches_iff_reaches {start instant : Int} :
    g.Approaches zone start instant ↔ g.Reaches zone start instant := by
  constructor
  · rintro ⟨hle, hsteps⟩
    rcases hle.eq_or_lt with rfl | hlt
    · exact .refl
    -- The first step does not go over the instant, and the rest is shorter.
    · obtain ⟨later, hfollows, hlater⟩ := hsteps start .refl hlt
      have happroaches : g.Approaches zone later instant :=
        ⟨hlater, fun bucket hreaches => hsteps bucket (.head hfollows hreaches)⟩
      have hsmaller : (instant - later).toNat < (instant - start).toNat := by
        have := hfollows.lt
        omega
      exact .head hfollows (approaches_iff_reaches.mp happroaches)
  · intro h
    constructor
    · exact h.le
    intro bucket hreaches hlt
    -- Steps are unique, so one of two reached buckets is reached from the other.
    have hunique : Relator.RightUnique (g.Follows zone) := fun _ _ _ => Follows.eq
    rcases Relation.ReflTransGen.total_of_right_unique hunique hreaches h with hrest | hrest
    · rcases Relation.ReflTransGen.cases_head hrest with rfl | ⟨later, hfollows, hlater⟩
      · exact absurd hlt (lt_irrefl _)
      · exact ⟨later, hfollows, Reaches.le hlater⟩
    · exact absurd (Reaches.le hrest) (not_le.mpr hlt)
termination_by (instant - start).toNat

/-- The buckets that a walk lists from one on, up to the last instant. -/
inductive Walks (g : Granularity) (zone : Zone) (last : Int) : Int → List Int → Prop
  | past {start : Int} (h : last < start) : Walks g zone last start []
  | ends {start : Int} (h : start ≤ last) (hnext : g.next zone start = .nothing) :
      Walks g zone last start [start]
  | goes {start later : Int} {run : List Int} (h : start ≤ last)
      (hnext : g.Follows zone start later) (hrest : Walks g zone last later run) :
      Walks g zone last start (start :: run)

theorem walks_iff_of_lt (h : last < start) : g.Walks zone last start run ↔ run = [] := by
  constructor
  · intro hrun
    cases hrun with
    | past _ => rfl
    | ends hle _ | goes hle _ _ => exact absurd h (not_lt.mpr hle)
  · rintro rfl
    exact .past h

theorem walks_iff_of_nothing (h : start ≤ last) (hnext : g.next zone start = .nothing) :
    g.Walks zone last start run ↔ run = [start] := by
  constructor
  · intro hrun
    cases hrun with
    | past hlt => exact absurd hlt (not_lt.mpr h)
    | ends _ _ => rfl
    | goes _ hfollows _ => simp [Follows, hnext] at hfollows
  · rintro rfl
    exact .ends h hnext

theorem walks_iff_of_follows (h : start ≤ last) (hfollows : g.Follows zone start later) :
    g.Walks zone last start run ↔ ∃ rest, g.Walks zone last later rest ∧ run = start :: rest := by
  constructor
  · intro hrun
    cases hrun with
    | past hlt => exact absurd hlt (not_lt.mpr h)
    | ends _ hnext => exact absurd (hfollows.symm.trans hnext) (by simp)
    | goes _ hother hrest => exact ⟨_, hother.eq hfollows ▸ hrest, rfl⟩
  · rintro ⟨rest, hrest, rfl⟩
    exact .goes h hfollows hrest

theorem not_walks_of_beyond (h : start ≤ last) (hnext : g.next zone start = .beyond) :
    ¬ g.Walks zone last start run := by
  intro hrun
  cases hrun with
  | past hlt => exact absurd hlt (not_lt.mpr h)
  | ends _ hother => simp [hnext] at hother
  | goes _ hfollows _ => simp [Follows, hnext] at hfollows

/-- A walk that may take one step for every second up to the last instant is not cut short. -/
theorem walk_eq_some_iff {steps : Nat} {found out : List Int}
    (hsteps : (last + 1 - start).toNat ≤ steps) :
    g.walk zone last steps start found = some out ↔
      ∃ run, g.Walks zone last start run ∧ found.reverse ++ run = out := by
  induction steps generalizing start found with
  | zero =>
      have hlt : last < start := by omega
      simp [walk, walks_iff_of_lt hlt]
  | succ steps ih =>
      by_cases hle : start ≤ last
      · cases hnext : g.next zone start with
        | bucket later =>
            have hlt : start < later := Follows.lt hnext
            have hrest : (last + 1 - later).toNat ≤ steps := by omega
            simp only [walk, if_pos hle, hnext, ih hrest, walks_iff_of_follows hle hnext]
            simp
        | nothing => simp [walk, hle, hnext, walks_iff_of_nothing hle hnext]
        | beyond => simp [walk, hle, hnext, not_walks_of_beyond hle hnext]
      · simp [walk, hle, walks_iff_of_lt (not_le.mp hle)]

/-- A walk lists the buckets that are reached up to the last instant. -/
theorem Walks.mem_iff (h : g.Walks zone last start run) (bucket : Int) :
    bucket ∈ run ↔ g.Reaches zone start bucket ∧ bucket ≤ last := by
  induction h with
  | past h =>
      simp only [List.not_mem_nil, false_iff, not_and, not_le]
      exact fun hreaches => h.trans_le hreaches.le
  | ends h hnext =>
      rw [reaches_iff_of_nothing hnext, List.mem_singleton]
      constructor
      · rintro rfl
        exact ⟨rfl, h⟩
      · exact And.left
  | goes h hnext _ ih =>
      rw [reaches_iff_of_follows hnext, List.mem_cons, ih, or_and_right]
      exact or_congr_left ⟨fun heq => ⟨heq, heq ▸ h⟩, And.left⟩

/-- There is a walk unless a bucket up to the last instant steps beyond the calendar. -/
theorem exists_walks_iff {start : Int} :
    (∃ run, g.Walks zone last start run) ↔
      ∀ bucket, g.Reaches zone start bucket → bucket ≤ last → g.next zone bucket ≠ .beyond := by
  constructor
  · rintro ⟨run, hrun⟩
    induction hrun with
    | past h =>
        intro bucket hreaches hle
        exact absurd hreaches.le (not_le.mpr (hle.trans_lt h))
    | ends h hnext =>
        intro bucket hreaches _
        rw [(reaches_iff_of_nothing hnext).mp hreaches, hnext]
        simp
    | goes h hnext _ ih =>
        intro bucket hreaches hle
        rcases (reaches_iff_of_follows hnext).mp hreaches with rfl | hrest
        · rw [show g.next zone bucket = _ from hnext]
          simp
        · exact ih bucket hrest hle
  · intro h
    -- Every step leaves fewer seconds up to the last instant.
    by_cases hle : start ≤ last
    · cases hnext : g.next zone start with
      | bucket later =>
          have hlt : start < later := Follows.lt hnext
          have hsmaller : (last - later).toNat < (last + 1 - start).toNat := by omega
          have hrest : ∃ run, g.Walks zone last later run :=
            exists_walks_iff.mpr fun bucket hreaches => h bucket (.head hnext hreaches)
          obtain ⟨run, hrun⟩ := hrest
          exact ⟨_, .goes hle hnext hrun⟩
      | nothing => exact ⟨_, .ends hle hnext⟩
      | beyond => exact absurd hnext (h start .refl hle)
    · exact ⟨[], .past (by omega)⟩
termination_by (last + 1 - start).toNat

/-- The labels of a window are those of the buckets on the walk from the bucket of its first
instant. -/
theorem labels?_eq_some_iff {first : Int} {labels : List String} (hfirst : Calendar.holds first)
    (hlast : Calendar.holds last) :
    g.labels? zone first last = some labels ↔
      ∃ start run, g.start? zone first = some start ∧ g.Walks zone last start run ∧
        run.map zone.stamp = labels := by
  rw [labels?, starts?, if_pos (by simp [hfirst, hlast])]
  cases hstart : g.start? zone first with
  | none => simp
  | some start =>
      have hsteps : (last + 1 - start).toNat ≤ (last - start).toNat + 1 := by omega
      simp only [Option.map_eq_some_iff, walk_eq_some_iff hsteps, List.reverse_nil,
        List.nil_append, Option.some.injEq]
      constructor
      · rintro ⟨_, ⟨run, hrun, rfl⟩, hlabels⟩
        exact ⟨start, run, rfl, hrun, hlabels⟩
      · rintro ⟨_, run, rfl, hrun, hlabels⟩
        exact ⟨run, ⟨run, hrun, rfl⟩, hlabels⟩

/-- The steps from the bucket of the first instant of a window stay in the calendar up to its last
instant, and for every instant of the window they approach a bucket with its label. -/
def Covers (g : Granularity) (zone : Zone) (first last : Int) : Prop :=
  ∃ start, g.start? zone first = some start ∧
    (∀ bucket, g.Reaches zone start bucket → bucket ≤ last → g.next zone bucket ≠ .beyond) ∧
    ∀ instant, first ≤ instant → instant ≤ last → ∃ own, g.start? zone instant = some own ∧
      ∃ bucket, zone.stamp bucket = zone.stamp own ∧ bucket ≤ last ∧
        g.Approaches zone start bucket

/-- A window is covered if and only if it has labels and the label of every instant is among
them. -/
theorem covers_iff_forall_label {first : Int} (hfirst : Calendar.holds first)
    (hlast : Calendar.holds last) :
    g.Covers zone first last ↔
      ∃ labels, g.labels? zone first last = some labels ∧
        ∀ instant, first ≤ instant → instant ≤ last →
          ∃ label, g.labelOf? zone instant = some (some label) ∧ label ∈ labels := by
  have hinside : ∀ instant, first ≤ instant → instant ≤ last → Calendar.holds instant := by
    intro instant hge hle
    simp only [Calendar.holds, Bool.and_eq_true, decide_eq_true_eq] at hfirst hlast ⊢
    exact ⟨hfirst.1.trans hge, hle.trans hlast.2⟩
  constructor
  · rintro ⟨start, hstart, hstays, happroaches⟩
    obtain ⟨run, hrun⟩ := exists_walks_iff.mpr hstays
    have hlabels : g.labels? zone first last = some (run.map zone.stamp) :=
      (labels?_eq_some_iff hfirst hlast).mpr ⟨start, run, hstart, hrun, rfl⟩
    refine ⟨run.map zone.stamp, hlabels, ?_⟩
    intro instant hge hle
    obtain ⟨own, hown, bucket, hstamp, hbucket, happroach⟩ := happroaches instant hge hle
    have hmem : bucket ∈ run := (hrun.mem_iff bucket).mpr
      ⟨approaches_iff_reaches.mp happroach, hbucket⟩
    refine ⟨zone.stamp own, ?_, hstamp ▸ List.mem_map_of_mem hmem⟩
    rw [labelOf?, if_pos (hinside instant hge hle), hown]
    rfl
  · rintro ⟨labels, hlabels, hmem⟩
    obtain ⟨start, run, hstart, hrun, rfl⟩ := (labels?_eq_some_iff hfirst hlast).mp hlabels
    refine ⟨start, hstart, exists_walks_iff.mp ⟨run, hrun⟩, ?_⟩
    intro instant hge hle
    obtain ⟨label, hlabel, hlisted⟩ := hmem instant hge hle
    rw [labelOf?, if_pos (hinside instant hge hle)] at hlabel
    obtain ⟨own, hown, hstamp⟩ := Option.map_eq_some_iff.mp hlabel
    obtain ⟨bucket, hbucket, hsame⟩ := List.mem_map.mp hlisted
    obtain ⟨hreaches, hle⟩ := (hrun.mem_iff bucket).mp hbucket
    refine ⟨own, hown, bucket, ?_, hle, approaches_iff_reaches.mpr hreaches⟩
    rw [hsame, Option.some.inj hstamp]

end Granularity

end FederatedMetrics
