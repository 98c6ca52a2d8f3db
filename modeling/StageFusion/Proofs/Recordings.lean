import StageFusion.Proofs.Rounding

/-! Statistics summarize the calls that record attempts.

A `Recording` is one call, and `Stats.recordAll` makes a sequence of them, going on past calls that fail. The
counters and the list of reductions are those of the whole sequence (`Stats.Tallies`), whatever became of
the average. The average is the one that the latest call with finite bounds has left: the exact mean of all
reductions so far, correctly rounded, if that call did not fail (`Stats.Summary`). Since sums and counts do
not depend on the order, the statistics after calls of which none failed do not either
(`Stats.recordAll_summarizes`). -/

namespace StageFusion

/-- One call that records an attempt. -/
inductive Recording where
  | fusion (up down bound : Multiplicity)
  | skip
  deriving DecidableEq, Repr

namespace Recording

def isFusion : Recording → Bool
  | fusion .. => true
  | skip => false

/-- The reduction that the call adds, if it records a fusion with finite bounds. -/
def reduction? : Recording → Option Int
  | fusion up down bound => Stats.reduction? up down bound
  | skip => none

/-- The reductions that a sequence of calls adds, in order. -/
def allReductions (calls : List Recording) : List Int :=
  calls.filterMap reduction?

/-- The exact mean of the reductions of a sequence of calls. -/
def meanReduction (calls : List Recording) : ℚ :=
  ((allReductions calls).sum : Int) / (allReductions calls).length

end Recording

namespace Stats

open Recording (allReductions meanReduction)

def record (s : Stats) : Recording → Stats × Option Fault
  | .fusion up down bound => s.addFusion up down bound
  | .skip => (s.addSkip, none)

/-- The statistics after a sequence of calls, of which some may fail. -/
def recordAll (s : Stats) (calls : List Recording) : Stats :=
  calls.foldl (fun s call => (s.record call).1) s

def Unbroken (s : Stats) : List Recording → Prop
  | [] => True
  | call :: calls => (s.record call).2 = none ∧ (s.record call).1.Unbroken calls

variable {s : Stats} {calls : List Recording} {call : Recording}

theorem recordAll_append (s : Stats) (front back : List Recording) :
    s.recordAll (front ++ back) = (s.recordAll front).recordAll back :=
  List.foldl_append

/-! ## Counters and reductions -/

/-- The counters and the reductions are those of a sequence of calls. -/
structure Tallies (s : Stats) (calls : List Recording) : Prop where
  attempts_eq : s.attempts = calls.length
  fused_eq : s.fused = calls.countP (·.isFusion)
  skipped_eq : s.skipped = calls.countP (!·.isFusion)
  reductions_eq : s.reductions = allReductions calls

theorem recorded_record (s : Stats) (up down bound : Multiplicity) :
    s.Recorded up down bound (s.record (.fusion up down bound)) :=
  s.recorded_addFusion up down bound

/-- What a call adds to the counters and to the reductions, whether or not it fails. -/
theorem record_figures (s : Stats) (call : Recording) :
    (s.record call).1.attempts = s.attempts + 1 ∧
    (s.record call).1.fused = s.fused + (if call.isFusion then 1 else 0) ∧
    (s.record call).1.skipped = s.skipped + (if call.isFusion then 0 else 1) ∧
    (s.record call).1.reductions = s.reductions ++ call.reduction?.toList := by
  cases call with
  | skip => exact ⟨rfl, rfl, rfl, (List.append_nil _).symm⟩
  | fusion up down bound =>
    have hrecorded := recorded_record s up down bound
    generalize s.record (.fusion up down bound) = recorded at hrecorded ⊢
    rw [Recording.reduction?]
    cases hrecorded with
    | counted infinite =>
      rw [infinite]
      exact ⟨rfl, rfl, rfl, (List.append_nil _).symm⟩
    | averaged finite =>
      rw [finite]
      exact ⟨rfl, rfl, rfl, rfl⟩
    | beyond finite =>
      rw [finite]
      exact ⟨rfl, rfl, rfl, rfl⟩

theorem Tallies.record (h : s.Tallies calls) (call : Recording) :
    (s.record call).1.Tallies (calls ++ [call]) := by
  obtain ⟨hattempts, hfused, hskipped, hreductions⟩ := record_figures s call
  constructor
  · rw [hattempts, h.attempts_eq, List.length_append, List.length_singleton]
  · rw [hfused, h.fused_eq, List.countP_append, List.countP_singleton]
  · rw [hskipped, h.skipped_eq, List.countP_append, List.countP_singleton]
    cases call.isFusion <;> rfl
  · rw [hreductions, h.reductions_eq, allReductions, allReductions, List.filterMap_append]
    cases hcall : call.reduction? <;> simp [hcall]

theorem tallies_recordAll (calls : List Recording) : (recordAll {} calls).Tallies calls := by
  induction calls using List.reverseRecOn with
  | nil => exact ⟨rfl, rfl, rfl, rfl⟩
  | append_singleton calls call ih =>
    rw [recordAll_append]
    exact ih.record call

/-! ## The average -/

/-- A call without three finite bounds returns and leaves the average as it is. -/
theorem record_of_infinite (s : Stats) (h : call.reduction? = none) :
    (s.record call).2 = none ∧ (s.record call).1.averageReduction = s.averageReduction := by
  cases call with
  | skip => exact ⟨rfl, rfl⟩
  | fusion up down bound =>
    have hrecorded := recorded_record s up down bound
    generalize s.record (.fusion up down bound) = recorded at hrecorded ⊢
    cases hrecorded with
    | counted => exact ⟨rfl, rfl⟩
    | averaged finite => cases finite.symm.trans h
    | beyond finite => cases finite.symm.trans h

/-- A call with three finite bounds averages all reductions so far, or fails. -/
theorem record_of_finite (s : Stats) {v : Int} (h : call.reduction? = some v) :
    ((s.record call).2 = none ∧
      mean? (s.reductions ++ [v]) = some (s.record call).1.averageReduction) ∨
    ((s.record call).2 = some .averageRange ∧ mean? (s.reductions ++ [v]) = none) := by
  cases call with
  | skip => cases h
  | fusion up down bound =>
    have hrecorded := recorded_record s up down bound
    generalize s.record (.fusion up down bound) = recorded at hrecorded ⊢
    cases hrecorded with
    | counted infinite => cases infinite.symm.trans h
    | averaged finite within =>
      obtain rfl := Option.some.inj (finite.symm.trans h)
      exact .inl ⟨rfl, within⟩
    | beyond finite range =>
      obtain rfl := Option.some.inj (finite.symm.trans h)
      exact .inr ⟨rfl, range⟩

theorem averageReduction_recordAll (s : Stats) (h : allReductions calls = []) :
    (s.recordAll calls).averageReduction = s.averageReduction := by
  induction calls generalizing s with
  | nil => rfl
  | cons call calls ih =>
    have hall : ∀ c ∈ call :: calls, c.reduction? = none := List.filterMap_eq_nil_iff.mp h
    obtain ⟨hcall, hcalls⟩ := List.forall_mem_cons.mp hall
    calc (s.recordAll (call :: calls)).averageReduction
        = (s.record call).1.averageReduction := ih _ (List.filterMap_eq_nil_iff.mpr hcalls)
      _ = s.averageReduction := (s.record_of_infinite hcall).2

theorem mean?_eq_some_iff {values : List Int} (hne : values ≠ []) {x : Binary64} :
    mean? values = some x ↔ Binary64.Rounds ((values.sum : Int) / values.length) x :=
  Binary64.ofRatio?_eq_some_iff (List.length_pos_iff.mpr hne)

theorem mean?_eq_none_iff {values : List Int} (hne : values ≠ []) :
    mean? values = none ↔ Binary64.Overflows ((values.sum : Int) / values.length) :=
  Binary64.ofRatio?_eq_none_iff (List.length_pos_iff.mpr hne)

/-- What the statistics are after a sequence of calls. -/
structure Summary (calls : List Recording) : Prop where
  /-- The counters count all calls. -/
  counts : (recordAll {} calls).attempts = calls.length ∧
    (recordAll {} calls).fused = calls.countP (·.isFusion) ∧
    (recordAll {} calls).skipped = calls.countP (!·.isFusion) ∧
    (recordAll {} calls).attempts = (recordAll {} calls).fused + (recordAll {} calls).skipped
  /-- The average is zero before the first fusion with finite bounds. -/
  zero : allReductions calls = [] → (recordAll {} calls).averageReduction = .zero
  /-- The latest call with finite bounds returns just if the average is the correctly rounded mean of the
  reductions of all such calls, and it fails just if this mean rounds beyond the largest number. -/
  mean : ∀ before call after, calls = before ++ call :: after → call.reduction?.isSome →
    allReductions after = [] →
    (((recordAll {} before).record call).2 = none ↔
      Binary64.Rounds (meanReduction calls) (recordAll {} calls).averageReduction) ∧
    (((recordAll {} before).record call).2 = some .averageRange ↔
      Binary64.Overflows (meanReduction calls))
  /-- Every other call returns and does not move the average. -/
  still : ∀ call : Recording, call.reduction? = none →
    ((recordAll {} calls).record call).2 = none ∧
      ((recordAll {} calls).record call).1.averageReduction = (recordAll {} calls).averageReduction

theorem summary_recordAll (calls : List Recording) : Summary calls := by
  have htallies := tallies_recordAll calls
  constructor
  case counts =>
    refine ⟨htallies.attempts_eq, htallies.fused_eq, htallies.skipped_eq, ?_⟩
    rw [htallies.attempts_eq, htallies.fused_eq, htallies.skipped_eq]
    simpa using List.length_eq_countP_add_countP (·.isFusion) (l := calls)
  case zero => exact averageReduction_recordAll {}
  case still => exact fun call h => record_of_infinite _ h
  case mean =>
    rintro before call after rfl hcall hafter
    obtain ⟨v, hv⟩ := Option.isSome_iff_exists.mp hcall
    have hall : allReductions (before ++ call :: after) =
        (recordAll {} before).reductions ++ [v] := by
      have hrest : after.filterMap Recording.reduction? = [] := hafter
      rw [(tallies_recordAll before).reductions_eq, allReductions, List.filterMap_append,
        List.filterMap_cons_some hv, hrest]
      rfl
    have haverage : (recordAll {} (before ++ call :: after)).averageReduction =
        ((recordAll {} before).record call).1.averageReduction := by
      rw [recordAll_append]
      exact averageReduction_recordAll _ hafter
    have hne : (recordAll {} before).reductions ++ [v] ≠ [] := by simp
    rw [meanReduction, hall, haverage]
    rcases record_of_finite (recordAll {} before) hv with ⟨hfault, hmean⟩ | ⟨hfault, hmean⟩
    · have hrounds := (mean?_eq_some_iff hne).mp hmean
      rw [hfault]
      exact ⟨iff_of_true rfl hrounds, iff_of_false nofun hrounds.not_overflows⟩
    · have hover := (mean?_eq_none_iff hne).mp hmean
      rw [hfault]
      exact ⟨iff_of_false nofun fun h => h.not_overflows hover, iff_of_true rfl hover⟩

/-! ## The order of calls -/

theorem Averaged.recordAll {s : Stats} {calls : List Recording} (hs : s.Averaged)
    (h : s.Unbroken calls) : (s.recordAll calls).Averaged := by
  induction calls generalizing s with
  | nil => exact hs
  | cons call calls ih =>
    obtain ⟨hcall, hcalls⟩ := h
    refine ih ?_ hcalls
    cases call with
    | skip => exact hs.addSkip
    | fusion up down bound =>
      have hrecorded := recorded_record s up down bound
      show (s.record (.fusion up down bound)).1.Averaged
      generalize s.record (.fusion up down bound) = recorded at hrecorded hcall ⊢
      obtain ⟨t, fault⟩ := recorded
      cases hcall
      exact hs.of_recorded hrecorded

theorem mean?_eq_of_perm {values others : List Int} (h : values.Perm others) :
    mean? values = mean? others := by
  have htotal : total values = total others := h.sum_eq
  rw [mean?, mean?, htotal, h.length_eq]

theorem Averaged.eq_of_perm {s t : Stats} (hs : s.Averaged) (ht : t.Averaged)
    (h : s.reductions.Perm t.reductions) : s.averageReduction = t.averageReduction := by
  by_cases hnil : s.reductions = []
  · have hnil' : t.reductions = [] := by
      rw [hnil] at h
      exact h.nil_eq.symm
    rw [hs.eq_zero hnil, ht.eq_zero hnil']
  · have hnil' : t.reductions ≠ [] := fun ht' => hnil (by
      rw [ht'] at h
      exact h.eq_nil)
    have hmean := hs.mean_eq hnil
    rw [mean?_eq_of_perm h, ht.mean_eq hnil'] at hmean
    exact (Option.some.inj hmean).symm

/-- **Statistics are a summary of the calls that were made, in any order.** The counters count all calls.
The average is zero before the first fusion with finite bounds. The latest such fusion returns just if the
average is the mean of all reductions so far, also of those whose calls failed, correctly rounded; it fails
just if this mean is out of range; and no other call fails or moves the average. Two orders of the same
calls of which none fails end in the same figures. -/
theorem recordAll_summarizes :
    (∀ calls, Summary calls) ∧
    ∀ calls others : List Recording, calls.Perm others →
      Unbroken {} calls → Unbroken {} others →
      (recordAll {} calls).attempts = (recordAll {} others).attempts ∧
      (recordAll {} calls).fused = (recordAll {} others).fused ∧
      (recordAll {} calls).skipped = (recordAll {} others).skipped ∧
      (recordAll {} calls).averageReduction = (recordAll {} others).averageReduction := by
  refine ⟨summary_recordAll, fun calls others hperm hcalls hothers => ?_⟩
  have htallies := tallies_recordAll calls
  have htallies' := tallies_recordAll others
  refine ⟨?_, ?_, ?_, ?_⟩
  · rw [htallies.attempts_eq, htallies'.attempts_eq, hperm.length_eq]
  · rw [htallies.fused_eq, htallies'.fused_eq, hperm.countP_eq]
  · rw [htallies.skipped_eq, htallies'.skipped_eq, hperm.countP_eq]
  · refine (Averaged.empty.recordAll hcalls).eq_of_perm (Averaged.empty.recordAll hothers) ?_
    rw [htallies.reductions_eq, htallies'.reductions_eq]
    exact hperm.filterMap Recording.reduction?

/-- A fusion whose reduction is out of range, one that brings the mean back to minus a half, and calls that
do not count for it. -/
def outAndBack : List Recording :=
  [.fusion (.exact (2 ^ 1025)) (.exact 0) (.exact 0), .skip,
    .fusion (.exact 0) (.exact 0) (.exact (2 ^ 1025 + 1)), .fusion .unbounded (.exact 1) .unbounded, .skip]

/-- The first fusion of these calls fails and counts all the same; three calls without a fault have the same
figures backwards. -/
theorem outAndBack_summarized :
    ((recordAll {} []).record (.fusion (.exact (2 ^ 1025)) (.exact 0) (.exact 0))).2 =
      some .averageRange ∧
    (recordAll {} outAndBack).averageReduction = .finite true (2 ^ 1073) ∧
    Binary64.Rounds (meanReduction outAndBack) (recordAll {} outAndBack).averageReduction ∧
    (recordAll {} [.skip, .fusion (.exact 3) (.exact 5) (.exact 15),
        .fusion (.exact 1) (.exact 1) (.exact 0)]).averageReduction =
      (recordAll {} [.fusion (.exact 1) (.exact 1) (.exact 0),
        .fusion (.exact 3) (.exact 5) (.exact 15), .skip]).averageReduction := by
  obtain ⟨hsummary, horder⟩ := recordAll_summarizes
  refine ⟨by decide +kernel, by decide +kernel, ?_, ?_⟩
  · have hmean := (hsummary outAndBack).mean
      [.fusion (.exact (2 ^ 1025)) (.exact 0) (.exact 0), .skip]
      (.fusion (.exact 0) (.exact 0) (.exact (2 ^ 1025 + 1)))
      [.fusion .unbounded (.exact 1) .unbounded, .skip] rfl (by decide +kernel) (by decide +kernel)
    exact hmean.1.mp (by decide +kernel)
  · refine (horder _ _ (List.reverse_perm _).symm ?_ ?_).2.2.2
    · exact ⟨by decide +kernel, by decide +kernel, by decide +kernel, trivial⟩
    · exact ⟨by decide +kernel, by decide +kernel, by decide +kernel, trivial⟩

end Stats

end StageFusion
